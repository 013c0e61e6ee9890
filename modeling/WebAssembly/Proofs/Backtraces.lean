import WebAssembly.Proofs.Limits
import WebAssembly.Proofs.Moves

/-!
# Backtraces

The list of active functions mirrors the calls that were entered and not left.  It is
changed where a call begins and where it comes back, and read when a run has been
aborted, at whatever depth that was.
-/

namespace WebAssembly

/-- The active functions of a run are those of the given calls, and they are not above
the ceiling. -/
structure Run.Mirrors (ceiling : Int) (r : Run) (calls : List FuncInst) : Prop where
  backtrace : r.backtrace = calls.map FuncInst.name
  bounded : r.active.size ≤ ceiling.toNat

theorem Run.Mirrors.of_active
    {ceiling : Int} {r r' : Run} {calls : List FuncInst} (h : r.Mirrors ceiling calls)
    (hactive : r'.active = r.active) : r'.Mirrors ceiling calls where
  backtrace := by
    rw [Run.backtrace, hactive]
    exact h.backtrace
  bounded := hactive ▸ h.bounded

theorem Run.Mirrors.size_eq
    {ceiling : Int} {r : Run} {calls : List FuncInst} (h : r.Mirrors ceiling calls) :
    r.active.size = calls.length := by
  have hlength := congrArg List.length h.backtrace
  rwa [Run.backtrace, List.length_reverse, Array.length_toList,
    List.length_map] at hlength

/-- At every scene the active functions are those of the calls that were in progress. -/
def Faithful (ceiling : Int) : List Scene → Prop :=
  Throughout fun scene older => scene.run.Mirrors ceiling (pending (scene :: older))

/-- The active functions are those of the calls in progress, now and at every scene. -/
structure Telling.Sound (ceiling : Int) (t : Telling) : Prop where
  now : t.run.Mirrors ceiling (pending t.scenes)
  scenes : Faithful ceiling t.scenes

namespace Telling.Sound

variable {ceiling : Int} {t : Telling} {r : Run}

theorem start (ceiling : Int) (s : Session) (args : List Val) :
    (Telling.start s args).Sound ceiling where
  now := ⟨rfl, Nat.zero_le _⟩
  scenes := Throughout.nil

theorem goOn
    (h : t.Sound ceiling) (hactive : r.active = t.run.active) :
    (t.goOn r).Sound ceiling :=
  ⟨h.now.of_active hactive, h.scenes⟩

theorem of_tell
    {position : Nat} {incident : Incident} (hscenes : Faithful ceiling t.scenes)
    (hnow : t.run.Mirrors ceiling (pending (t.tell position incident).scenes)) :
    (t.tell position incident).Sound ceiling :=
  ⟨hnow, Throughout.cons hscenes hnow⟩

/-- An incident that is neither the beginning nor the end of a call changes no call in
progress. -/
theorem tell
    (h : t.Sound ceiling) (position : Nat) {incident : Incident}
    (hpending : pending (t.tell position incident).scenes = pending t.scenes) :
    (t.tell position incident).Sound ceiling :=
  of_tell h.scenes (hpending ▸ h.now)

theorem enter
    (h : t.Sound ceiling) (position : Nat) {f : FuncInst}
    (hroom : t.run.active.size < ceiling)
    (hactive : r.active = t.run.active.push f.name) :
    (((t.tell position .calling).goOn r).tell position (.entered f)).Sound ceiling := by
  refine of_tell (h.tell position rfl).scenes ⟨?_, ?_⟩
  · have hbacktrace : t.run.active.toList.reverse =
        (pending t.scenes).map FuncInst.name := h.now.backtrace
    have hpush : r.active.toList.reverse = f.name :: t.run.active.toList.reverse := by
      rw [hactive, Array.toList_push, List.reverse_append]
      rfl
    exact hpush.trans (congrArg (f.name :: ·) hbacktrace)
  · have hsize : r.active.size = t.run.active.size + 1 := by
      rw [hactive, Array.size_push]
    have hbound : r.active.size ≤ ceiling.toNat := by omega
    exact hbound

theorem leave
    (h : t.Sound ceiling) (outside : Nat) (hactive : r.active = t.run.active.pop) :
    ((t.goOn r).tell outside .left).Sound ceiling := by
  refine of_tell h.scenes ⟨?_, ?_⟩
  · have hbacktrace : t.run.active.toList.reverse =
        (pending t.scenes).map FuncInst.name := h.now.backtrace
    have hpop : r.active.toList.reverse = t.run.active.toList.reverse.tail := by
      rw [hactive, Array.toList_pop, List.tail_reverse]
    exact hpop.trans ((congrArg List.tail hbacktrace).trans List.map_tail.symm)
  · have hsize : r.active.size = t.run.active.size - 1 := by
      rw [hactive, Array.size_pop]
    have hbound := h.now.bounded
    have hbound' : r.active.size ≤ ceiling.toNat := by omega
    exact hbound'

end Telling.Sound

variable {setting : Setting} {Hosts : Session → Session → Prop}

/-- Every move keeps the active functions in step with the calls. -/
theorem Move.sound
    {place place' : Nat × Telling} (h : Move setting Hosts place place')
    (hsound : place.2.Sound setting.config.ceiling) :
    place'.2.Sound setting.config.ceiling := by
  cases h with
  | calm kin => exact hsound.goOn kin.active
  | advance count => exact hsound
  | dispatch inside occurs => exact hsound.tell _ rfl
  | enter room live active session => exact hsound.enter _ room active
  | answer outside active host => exact (hsound.goOn active).tell outside rfl
  | leave outside inside active session => exact hsound.leave outside active
  | restart start live kin =>
    have hlooping : (Telling.tell _ start .looping).Sound _ := hsound.tell start rfl
    exact (hlooping.goOn kin.active).tell start rfl

theorem Moves.sound
    {place place' : Nat × Telling} (h : Moves setting Hosts place place')
    (hsound : place.2.Sound setting.config.ceiling) :
    place'.2.Sound setting.config.ceiling := by
  induction h with
  | refl => exact hsound
  | tail _ hmove ih => exact hmove.sound ih

theorem Halt.sound
    {place : Nat × Telling} {cause : Abort} {t : Telling}
    (h : Halt setting Hosts place cause t)
    (hsound : place.2.Sound setting.config.ceiling) :
    t.Sound setting.config.ceiling := by
  cases h with
  | calm kin => exact hsound.goOn kin.active
  | exhausted => exact hsound
  | host own active host => exact hsound.goOn active
  | overflow | refuse | stop => exact hsound.tell _ rfl

/-- A call is refused by the ceiling only when as many functions are active as it
allows. -/
theorem Halt.size_of_overflow
    {place : Nat × Telling} {t : Telling}
    (h : Halt setting Hosts place (.trap .callStackOverflow) t)
    (hsound : place.2.Sound setting.config.ceiling) :
    t.run.active.size = setting.config.ceiling.toNat := by
  cases h with
  | calm _ isLocal => exact isLocal.elim
  | host own =>
    obtain isLocal | h := own
    · exact isLocal.elim
    · cases h
  | overflow full =>
    have hbound := hsound.now.bounded
    exact Nat.le_antisymm hbound (Int.toNat_le.mpr full)

/-- The newest scene is an attempt to enter a function. -/
def CallRefused (scenes : List Scene) : Prop :=
  ∃ scene older, scenes = scene :: older ∧ scene.incident = .calling

/-- The newest scene is an attempt to restart a loop. -/
def RestartRefused (scenes : List Scene) : Prop :=
  ∃ scene older, scenes = scene :: older ∧ scene.incident = .looping

theorem Halt.callRefused
    {place : Nat × Telling} {t : Telling}
    (h : Halt setting Hosts place (.trap .callStackOverflow) t) :
    CallRefused t.scenes := by
  cases h with
  | calm _ isLocal => exact isLocal.elim
  | host own =>
    obtain isLocal | h := own
    · exact isLocal.elim
    · cases h
  | overflow full => exact ⟨_, _, rfl, rfl⟩

theorem Halt.refused
    {place : Nat × Telling} {reason : DoneReason} {t : Telling}
    (h : Halt setting Hosts place (.trap (.contextDone reason)) t) :
    CallRefused t.scenes ∨ RestartRefused t.scenes := by
  cases h with
  | calm _ isLocal => exact isLocal.elim
  | host own =>
    obtain isLocal | h := own
    · exact isLocal.elim
    · cases h
  | refuse => exact .inl ⟨_, _, rfl, rfl⟩
  | stop => exact .inr ⟨_, _, rfl, rfl⟩

namespace Engine

open Told

theorem journey_invocation (fuel : Nat) (setting : Setting) (function : UInt32)
    (args : List Val) (s : Session) :
    Journey setting (fun _ _ => True) (InCall function (.start s args))
      (fun _ => True) (0, .start s args) 0 []
      (tellCall fuel setting 0 function) := by
  have hhosts (n : Nat) (program : HostProgram) (s : Session) :
      Ends (runHost n setting.context program) s (fun _ _ => True) fun _ _ => True := by
    unfold Ends
    split <;> trivial
  exact (travels fun n _ => hhosts n).call 0 function (.start s args)

theorem sound_telling (fuel : Nat) (setting : Setting) (function : UInt32)
    (args : List Val) (s : Session) :
    (final (tellCall fuel setting 0 function (.start s args))).Sound
      setting.config.ceiling := by
  have hjourney := journey_invocation fuel setting function args s
  have hstart := Telling.Sound.start setting.config.ceiling s args
  cases htold : tellCall fuel setting 0 function (.start s args) with
  | ok a t => exact (hjourney.onOk htold).2.2.sound hstart
  | error cause t =>
    obtain ⟨-, place, hmoves, hhalt⟩ := hjourney.onError htold
    exact hhalt.sound (hmoves.sound hstart)

/-- At every moment of an invocation no more functions are active than the ceiling
allows, and they are those that were entered and not left.  An invocation that traps
reports them, innermost first and the invoked function last; a call that is refused does
not count among them, and one that the ceiling refuses finds as many of them as it
allows. -/
theorem backtraces_exact
    (fuel : Nat) (context : ContextRef) (function : UInt32) (args : List Val)
    (s : Session) (config : EngineConfig)
    (haccept : Operation.accept function args s = .ok config s) :
    let scenes := chronicle fuel { config, context } function args s
    (∀ scene older, scene :: older <:+ scenes →
      scene.run.active.size ≤ config.ceiling.toNat ∧
        scene.run.backtrace = (pending (scene :: older)).map FuncInst.name) ∧
    ∀ cause names t, invoke (fuel + 1) context function args s =
        .error (.trap cause names) t →
      names = (pending scenes).map FuncInst.name ∧
      (∀ f ∈ (pending scenes).getLast?, s.store.functions[function.toNat]? = some f) ∧
      (cause = .callStackOverflow → names.length = config.ceiling.toNat ∧
        CallRefused scenes) ∧
      (∀ reason, cause = .contextDone reason → CallRefused scenes ∨
        RestartRefused scenes) := by
  intro scenes
  have hsound := sound_telling fuel { config, context } function args s
  refine ⟨fun scene older hsuffix => ?_, fun cause names u hinvoke => ?_⟩
  · have hmirrors := hsound.scenes scene older hsuffix
    exact ⟨hmirrors.bounded, hmirrors.backtrace⟩
  · obtain ⟨t, htold, rfl⟩ := exists_told_of_trap haccept hinvoke
    obtain ⟨hcalls, place, hmoves, hhalt⟩ :=
      (journey_invocation fuel { config, context } function args s).onError htold
    have hplace := hmoves.sound (Telling.Sound.start config.ceiling s args)
    have hscenes : scenes = t.scenes := by
      simp only [scenes, chronicle, htold]
      rfl
    rw [htold] at hsound
    rw [hscenes]
    refine ⟨hsound.now.backtrace, ?_, ?_, ?_⟩
    · intro f hf
      obtain hnone | ⟨g, hg, hsuffix⟩ := hcalls
      · rw [hnone] at hf
        cases hf
      · obtain ⟨above, habove⟩ := hsuffix
        have hlast : pending t.scenes = above ++ [g] := habove.symm
        rw [hlast, List.getLast?_concat] at hf
        cases hf
        exact hg
    · rintro rfl
      refine ⟨?_, hhalt.callRefused⟩
      rw [Run.backtrace, List.length_reverse, Array.length_toList]
      exact hhalt.size_of_overflow hplace
    · rintro reason rfl
      exact hhalt.refused

/-- A function that calls a host function and then itself comes to the ceiling of three
calls, and the host function, which has returned each time, is not among them. -/
theorem recursion_reaches_ceiling :
    let s := (Session.assigner [] [.call 0, .call 1]).withEngine ⟨3, 0, false, false⟩
    ∃ t, Operation.accept 1 [] s = .ok ⟨3, 0, false, false⟩ s ∧
      invoke 20 .background 1 [] s =
        .error (.trap .callStackOverflow ["work", "work", "work"]) t ∧
      (pending (chronicle 19 { config := ⟨3, 0, false, false⟩, context := .background }
          1 [] s)).map FuncInst.name =
        ["work", "work", "work"] := by
  intro s
  have haccept : Operation.accept 1 [] s = .ok ⟨3, 0, false, false⟩ s := rfl
  have hruns : (match invoke 20 .background 1 [] s with
      | .error (.trap .callStackOverflow names) _ => names == ["work", "work", "work"]
      | _ => false) = true := by decide +kernel
  obtain ⟨-, htraps⟩ := backtraces_exact 19 .background 1 [] s _ haccept
  clear_value s
  split at hruns
  · rename_i names t hinvoke
    obtain rfl : names = ["work", "work", "work"] := eq_of_beq hruns
    exact ⟨t, haccept, hinvoke, (htraps _ _ _ hinvoke).1.symm⟩
  · cases hruns

end Engine
end WebAssembly
