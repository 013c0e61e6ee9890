import WebAssembly.Config
import WebAssembly.Proofs.Evolution
import WebAssembly.Proofs.WellFormed

/-!
# Reachable sessions

A session is reachable if lawful commands lead to it from a store without instances.
Nothing is asked of the bound on the length of each command, so sessions in which a
command was cut short are reachable too.
-/

namespace WebAssembly

/-- The store has no instances yet; its settings and its engine may be any. -/
structure Store.IsNew (s : Store) : Prop where
  functions : s.functions = #[]
  tables : s.tables = #[]
  memories : s.memories = #[]
  globals : s.globals = #[]
  modules : s.modules = #[]

theorem Config.isNew_newStore (config : Config) (logging : Bool) :
    (config.newStore logging).IsNew :=
  ⟨rfl, rfl, rfl, rfl, rfl⟩

theorem Store.IsNew.lawful
    {law : ValueLaw} {s : Store} (h : s.IsNew) : s.Lawful law :=
  ⟨by simp [h.functions], by simp [h.globals]⟩

theorem Store.IsNew.wellFormed
    {s : Store} (h : s.IsNew) : s.WellFormed := by
  constructor <;> simp [h.memories, h.tables, h.functions, h.modules]

theorem Store.IsNew.globalsTyped
    {s : Store} (h : s.IsNew) : s.GlobalsTyped := by
  simp [GlobalsTyped, h.globals]

namespace Session

/-- Lawful commands, one after the other, lead from a session to another one. -/
inductive Leads (law : ValueLaw) (total : Prop) (s : Session) : Session → Prop
  | refl : Leads law total s s
  | step {s' command} (h : Leads law total s s') (fuel : Nat)
    (hcommand : command.Lawful law total) :
    Leads law total s (s'.step fuel command).2

/-- Lawful commands lead to the session from a new store. -/
def Reachable (law : ValueLaw) (total : Prop) (s : Session) : Prop :=
  ∃ store : Store, store.IsNew ∧ Leads law total { store } s

variable {law : ValueLaw} {total : Prop} {s s' : Session} {command : Command}

theorem reachable_newStore (config : Config) (logging : Bool) :
    Reachable law total { store := config.newStore logging } :=
  ⟨_, config.isNew_newStore logging, .refl⟩

theorem Reachable.step
    (h : s.Reachable law total) (fuel : Nat) (hcommand : command.Lawful law total) :
    (s.step fuel command).2.Reachable law total := by
  obtain ⟨store, hnew, hleads⟩ := h
  exact ⟨store, hnew, hleads.step fuel hcommand⟩

/-- What holds of the session however a command ends holds of the next session. -/
theorem step_of_ends
    {P : Session → Prop} {fuel : Nat}
    (h : Ends (Engine.perform fuel .background command) s (fun _ => P) fun _ => P) :
    P (s.step fuel command).2 := by
  unfold step
  cases hperform : Engine.perform fuel .background command s with
  | ok response s' => exact h.onOk hperform
  | error error s' => exact h.onError hperform

/-- A command changes the store by known steps, whatever its outcome. -/
theorem evolves_step
    (hs : s.store.Lawful law) (hcommand : command.Lawful law total) (fuel : Nat) :
    Store.Evolves law False False s.store (s.step fuel command).2.store := by
  have hends := (Engine.evolving hs fuel).perform .background command hcommand.weaken s
    (.refl s.store)
  exact step_of_ends (P := Exec.From law s.store) (hends.mono (fun _ _ h => h.2)
    fun _ _ => id)

theorem Leads.evolves
    (h : s.Leads law total s') (hs : s.store.Lawful law) :
    Store.Evolves law False False s.store s'.store := by
  induction h with
  | refl => exact .refl s.store
  | step _ fuel hcommand ih =>
      exact ih.trans (evolves_step (ih.lawful hs) hcommand fuel)

theorem Reachable.lawful
    (h : s.Reachable law total) : s.store.Lawful law := by
  obtain ⟨store, hnew, hleads⟩ := h
  exact (hleads.evolves hnew.lawful).lawful hnew.lawful

theorem Reachable.wellFormed
    (h : s.Reachable law total) : s.store.WellFormed := by
  obtain ⟨store, hnew, hleads⟩ := h
  exact (hleads.evolves hnew.lawful).wellFormed hnew.wellFormed

theorem Reachable.globalsTyped
    (h : s.Reachable law total) (hsize : s.store.globals.size ≤ UInt32.size) :
    s.store.GlobalsTyped := by
  obtain ⟨store, hnew, hleads⟩ := h
  exact (hleads.evolves hnew.lawful).globalsTyped hsize hnew.globalsTyped

end Session

/-- The payload of a value fits the width of its type. -/
def Val.Fits (v : Val) : Prop :=
  v.type = .i32 ∨ v.type = .f32 → v.bits.toNat < 2 ^ 32

/-- The law of values whose payloads fit, which are all those that can be made from
bits. -/
def ValueLaw.fits : ValueLaw where
  Holds := Val.Fits
  ofBits := by
    intro type bits h
    rw [Val.type_ofBits] at h
    rcases h with rfl | rfl <;> simpa [Val.ofBits] using bits.toUInt32.toNat_lt

end WebAssembly
