import WebAssembly.Proofs.Reachability
import WebAssembly.Proofs.Soundness

/-!
# Sound sessions

Every session to which public operations lead is sound while addresses suffice, and so
it is with any other engine in the place of its own.
-/

namespace WebAssembly

namespace Store

variable {law : ValueLaw} {total : Prop} {s : Store}

theorem IsNew.typed
    (h : s.IsNew) : s.Typed law total :=
  ⟨h.lawful, h.wellFormed, h.globalsTyped, by simp [h.functions]⟩

theorem IsNew.addressable
    (h : s.IsNew) : s.Addressable := by
  constructor <;> simp [h.functions, h.globals, h.modules]

/-- What a store holds is typed no matter which engine runs it. -/
theorem Typed.withEngine
    (h : s.Typed law total) (engine : Option EngineConfig) :
    Typed law total { s with engine } where
  lawful := { h.lawful with }
  wellFormed := { h.wellFormed with
    modules := fun position inst hinst =>
      { h.wellFormed.modules position inst hinst with } }
  globals := h.globals
  functions := by
    intro f hf
    have htyped := h.functions f hf
    unfold FuncInst.Typed at htyped ⊢
    split at htyped
    · obtain ⟨type, inst, c, htype, hinst, hrealizes, hbody⟩ := htyped
      exact ⟨type, inst, c, htype, hinst, { hrealizes with }, hbody⟩
    · exact htyped
    · exact htyped

end Store

namespace Engine

variable {law : ValueLaw} {total : Prop} {base : Store} {s : Session}
  {command : Command}

/-- Without an engine, nothing is run. -/
theorem soundInvocations_of_no_engine
    (hengine : base.engine = none) (fuel : Nat) :
    SoundInvocations law total False base fuel := by
  intro context function args s _ hs
  cases fuel with
  | zero => exact fun _ => ⟨hs, False.elim⟩
  | succ fuel =>
      have hnone : s.store.engine = none := hs.evolves.extension.engine.trans hengine
      rw [invoke.eq_def]
      refine Ends.get_bind (Ends.bind (P := fun _ _ => False)
        (Operation.ends_present (fun _ hsome => ?_) ?_) ?_)
      · rw [hnone] at hsome
        cases hsome
      · exact fun _ _ => ⟨hs, False.elim⟩
      · exact fun _ _ h => h.elim

/-- Every command keeps a session sound, with an engine or without one. -/
theorem perform_sound
    (hcommand : command.Lawful law total) (hs : s.Sound law total base) (fuel : Nat)
    (context : ContextRef) :
    EndsWithin Session.Bounded (perform fuel context command) s
      (fun _ s' => s'.Sound law total base)
      fun _ s' => s'.Sound law total base := by
  by_cases hengine : base.engine = none
  · cases fuel with
    | zero => exact fun _ => hs
    | succ fuel =>
        have hinvoke := @soundInvocations_of_no_engine law total base hengine fuel
        exact (sound_perform False.elim hinvoke hcommand hs).mono (fun _ _ h => h.1)
          fun _ _ h => h.1
  · exact ((sound (fun _ => hengine) fuel).perform context hcommand hs).mono
      (fun _ _ h => h.1) fun _ _ h => h.1

end Engine

namespace Session

variable {law : ValueLaw} {total : Prop} {base : Store} {s s' : Session}

theorem Leads.sound
    (h : s.Leads law total s') (hs : s.Sound law total base)
    (haddr : s'.store.Addressable) :
    s'.Sound law total base := by
  induction h with
  | refl => exact hs
  | @step s' command hleads fuel hcommand ih =>
      have hlawful := (hleads.evolves hs.typed.lawful).lawful hs.typed.lawful
      have hext := (evolves_step hlawful hcommand fuel).extension
      have hs' := ih (hext.addressable haddr)
      exact step_of_ends (P := fun s => s.Bounded → s.Sound law total base)
        (Engine.perform_sound hcommand hs' fuel .background) haddr

/-- A reachable session is sound, and may be taken as a new beginning. -/
theorem Reachable.sound
    (h : s.Reachable law total) (haddr : s.store.Addressable) :
    s.Sound law total s.store := by
  obtain ⟨store, hnew, hleads⟩ := h
  have hstart : Session.Sound law total store { store } :=
    ⟨hnew.addressable, hnew.typed, .refl _, nofun⟩
  exact { hleads.sound hstart haddr with evolves := .refl _ }

theorem Sound.withEngine
    (hs : s.Sound law total base) (engine : Option EngineConfig) :
    Session.Sound law total { s.store with engine }
      (s.withStore { s.store with engine }) where
  addressable := { hs.addressable with }
  typed := hs.typed.withEngine engine
  evolves := .refl _
  calls := hs.calls

end Session

/-- A host function that gives back its argument, and stops by force if that has the
wrong type. -/
def HostFunction.echo : HostFunction := fun params =>
  if params.map Val.type = [.i32] then .done params else .stop .crash

/-- A module whose function hands its argument over to a function that it imports. -/
def Module.relay : Module where
  types := [some ⟨[.i32], [.i32]⟩]
  imports := [some ⟨"host", "echo", .func 0⟩]
  functions := [0]
  globals := [some ⟨some ⟨.i32, false⟩, some (.const .i32 7)⟩]
  code := [some ⟨[], [.localGet 0, .call 0]⟩]

namespace Session

/-- A relay that imports the host function. -/
def relay : Session :=
  ((({ store := ({} : Config).newStore false } : Session).step 2
    (.allocFunction "echo" (some ⟨[.i32], [.i32]⟩) (some HostFunction.echo))).2.step 9
      (.instantiate (some .relay) "relay" [⟨.func, 0⟩] .background)).2

theorem reachable_relay (law : ValueLaw) (total : Prop) :
    relay.Reachable law total := by
  refine ((reachable_newStore _ _).step 2 ?_).step 9
    (.instantiate_of_data_eq_nil rfl)
  refine .allocFunction (fun _ => ⟨rfl, rfl⟩) (fun _ => nofun) ?_ ?_
  · rintro _ ⟨⟩ params hholds
    unfold HostFunction.echo
    split
    · exact .done hholds
    · exact .stop id
  · rintro _ _ ⟨⟩ ⟨⟩ params hholds hparams
    unfold HostFunction.echo
    rw [if_pos hparams]
    exact .done hholds

end Session
end WebAssembly
