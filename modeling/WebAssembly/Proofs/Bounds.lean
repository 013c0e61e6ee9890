import WebAssembly.Proofs.DoneContexts
import WebAssembly.Proofs.Refinement

/-!
# Bounds of tellings

A larger bound changes nothing that was finished.  So the parts of a step may be given
bounds of their own, and if each of them is enough for its part, then some bound is
enough for the whole step.
-/

namespace WebAssembly

namespace Told

variable {α β : Type}

/-! ## Steps that do not wait -/

/-- The property of a session depends on its contexts only. -/
def OnContexts (I : Session → Prop) : Prop :=
  ∀ ⦃s s' : Session⦄, s'.contexts = s.contexts → I s → I s'

theorem onContexts_true : OnContexts fun _ => True :=
  fun _ _ _ => id

theorem onContexts_over (setting : Setting) : OnContexts setting.Over :=
  fun _ _ hcontexts hover => hover.of_contexts hcontexts

theorem onContexts_not_over (setting : Setting) : OnContexts fun s => ¬setting.Over s :=
  fun _ _ hcontexts hlive hover => hlive (hover.of_contexts hcontexts.symm)

/-- The step keeps a property of the session, and it is not the bound that ends it. -/
def Prompt (I : Session → Prop) (P : α → Prop) (x : Told α) : Prop :=
  ∀ t, I t.run.session → Ends x t (fun a t' => P a ∧ I t'.run.session)
    fun cause _ => cause ≠ .exhausted

namespace Prompt

variable {I : Session → Prop} {P : α → Prop} {Q : β → Prop} {x : Told α}
  {f : α → Told β}

theorem bind
    (hx : Prompt I P x) (hf : ∀ a, P a → Prompt I Q (f a)) : Prompt I Q (x >>= f) :=
  fun t ht => (hx t ht).bind fun a t' h => hf a h.1 t' h.2

theorem pure
    {a : α} (h : P a) : Prompt I P (Pure.pure a) :=
  fun _ ht => ⟨h, ht⟩

theorem tell (position : Nat) (incident : Incident) :
    Prompt I (fun _ => True) (tell position incident) :=
  fun _ ht => ⟨trivial, ht⟩

theorem silent
    (hI : OnContexts I) {y : Exec α} (hy : y.Calm P) : Prompt I P (silent y) := by
  intro t ht
  cases h : y t.run with
  | ok a r =>
    obtain ⟨ha, hkin⟩ := (hy t.run).onOk h
    exact Ends.of_eq_ok (silent_of_ok h) ⟨ha, hI hkin.contexts ht⟩
  | error cause r =>
    obtain ⟨hlocal, -⟩ := (hy t.run).onError h
    refine Ends.of_eq_error (silent_of_error h) ?_
    rintro rfl
    exact hlocal

/-- Whatever the session is like, it is not the bound that ends the step. -/
theorem ne_exhausted
    (h : Prompt (fun _ => True) P x) {t t' : Telling} : x t ≠ .error .exhausted t' := by
  intro hx
  exact (h t trivial).onError hx rfl

end Prompt

/-! ## A larger bound -/

/-- The first step has not ended within its bound, or the second one ends in the same
way. -/
def Persists (x y : Told α) : Prop :=
  ∀ t, (∃ t', x t = .error .exhausted t') ∨ y t = x t

namespace Persists

variable {x y : Told α} {f g : α → Told β}

theorem refl (x : Told α) : Persists x x :=
  fun _ => .inr rfl

theorem throw (y : Told α) : Persists (MonadExcept.throw .exhausted) y :=
  fun t => .inl ⟨t, rfl⟩

theorem bind
    (hx : Persists x y) (hf : ∀ a, Persists (f a) (g a)) :
    Persists (x >>= f) (y >>= g) := by
  intro t
  obtain ⟨t', hx⟩ | hsame := hx t
  · exact .inl ⟨t', bind_eq_of_eq_error hx⟩
  · cases hx : x t with
    | ok a t' =>
      rw [bind_eq_of_eq_ok hx, bind_eq_of_eq_ok (hsame.trans hx)]
      exact hf a t'
    | error cause t' =>
      rw [bind_eq_of_eq_error hx, bind_eq_of_eq_error (hsame.trans hx)]
      exact .inr rfl

end Persists

/-- A step for every bound, of which a larger bound changes nothing that was
finished. -/
def Rising (x : Nat → Told α) : Prop :=
  ∀ fuel, Persists (x fuel) (x (fuel + 1))

namespace Rising

theorem const (x : Told α) : Rising fun _ => x :=
  fun _ => .refl x

theorem eq_of_le
    {x : Nat → Told α} (h : Rising x) {fuel larger : Nat} (hle : fuel ≤ larger)
    {t : Telling} (hends : ∀ t', x fuel t ≠ .error .exhausted t') :
    x larger t = x fuel t := by
  induction hle with
  | refl => rfl
  | @step larger _ ih =>
    obtain ⟨t', hexhausted⟩ | hsame := h larger t
    · exact absurd (ih.symm.trans hexhausted) (hends t')
    · exact hsame.trans ih

end Rising

/-! ## Enough of a bound -/

/-- With some bound the step is ended, and the context is done if it succeeds. -/
def Subsides (setting : Setting) (x : Nat → Told α) (t : Telling) : Prop :=
  ∃ fuel, Ends (x fuel) t (fun _ t' => setting.Over t'.run.session)
    fun cause _ => cause ≠ .exhausted

namespace Subsides

variable {setting : Setting} {x : Nat → Told α} {f : Nat → α → Told β} {t : Telling}

theorem ne_exhausted
    {x : Told α} (h : Ends x t (fun _ t' => setting.Over t'.run.session)
      fun cause _ => cause ≠ .exhausted)
    (t' : Telling) : x t ≠ .error .exhausted t' := by
  intro hx
  exact h.onError hx rfl

theorem of_prompt
    {x : Told α} {P : α → Prop} (hx : Prompt setting.Over P x)
    (hover : setting.Over t.run.session) :
    Subsides setting (fun _ => x) t :=
  ⟨0, (hx t hover).mono (fun _ _ h => h.2) fun _ _ => id⟩

theorem pure
    (a : α) (hover : setting.Over t.run.session) :
    Subsides setting (fun _ => Pure.pure a) t :=
  ⟨0, hover⟩

/-- One more unit of the bound is spent on the step itself. -/
theorem succ
    {y : Nat → Told α} (h : Subsides setting x t) (hy : ∀ fuel, y (fuel + 1) = x fuel) :
    Subsides setting y t := by
  obtain ⟨fuel, hends⟩ := h
  exact ⟨fuel + 1, hy fuel ▸ hends⟩

/-- The bounds of two parts are joined, if the first part is known to end. -/
theorem after
    {a : α} {t' : Telling} (fuel : Nat) (hx : Rising x) (hf : Rising fun n => f n a)
    (hok : x fuel t = .ok a t') (h : Subsides setting (fun n => f n a) t') :
    Subsides setting (fun n => x n >>= f n) t := by
  obtain ⟨fuel', hends⟩ := h
  have hfirst : x (max fuel fuel') t = .ok a t' := by
    rw [← hok]
    refine hx.eq_of_le (Nat.le_max_left fuel fuel') fun u hu => ?_
    cases hok.symm.trans hu
  have hsecond : f (max fuel fuel') a t' = f fuel' a t' :=
    hf.eq_of_le (Nat.le_max_right fuel fuel') (ne_exhausted hends)
  exact ⟨max fuel fuel', Ends.bind_of_eq_ok hfirst (Ends.of_eq hsecond hends)⟩

theorem bind
    (hx : Rising x) (hf : ∀ a, Rising fun n => f n a) (h : Subsides setting x t)
    (hrest : ∀ a t', setting.Over t'.run.session →
      Subsides setting (fun n => f n a) t') :
    Subsides setting (fun n => x n >>= f n) t := by
  obtain ⟨fuel, hends⟩ := h
  cases hresult : x fuel t with
  | ok a t' => exact after fuel hx (hf a) hresult (hrest a t' (hends.onOk hresult))
  | error cause t' =>
      exact ⟨fuel, Ends.of_eq_error (bind_eq_of_eq_error hresult)
        (hends.onError hresult)⟩

theorem prompt_bind
    {x : Told α} {P : α → Prop} (hx : Prompt setting.Over P x)
    (hf : ∀ a, Rising fun n => f n a) (hover : setting.Over t.run.session)
    (hrest : ∀ a t', P a → setting.Over t'.run.session →
      Subsides setting (fun n => f n a) t') :
    Subsides setting (fun n => x >>= f n) t := by
  cases hresult : x t with
  | ok a t' =>
    obtain ⟨ha, hover'⟩ := (hx t hover).onOk hresult
    exact after 0 (.const x) (hf a) hresult (hrest a t' ha hover')
  | error cause t' =>
    exact ⟨0, Ends.of_eq_error (bind_eq_of_eq_error hresult)
      ((hx t hover).onError hresult)⟩

end Subsides

/-- If the step is not ended within a bound but the context was done on the way, then
some bound is enough. -/
def Relents (setting : Setting) (x : Nat → Told α) (fuel : Nat) (t : Telling) : Prop :=
  ∀ t', x fuel t = .error .exhausted t' →
    (∃ scene ∈ t'.scenes, setting.Over scene.run.session) → Subsides setting x t

namespace Relents

variable {setting : Setting} {x : Nat → Told α} {f : Nat → α → Told β} {fuel : Nat}
  {t : Telling}

theorem of_prompt
    {x : Told α} {P : α → Prop} (hx : Prompt (fun _ => True) P x) :
    Relents setting (fun _ => x) fuel t :=
  fun _ hexhausted => absurd hexhausted hx.ne_exhausted

theorem pure (a : α) : Relents setting (fun _ => Pure.pure a) fuel t :=
  fun _ hexhausted => by cases hexhausted

/-- Where nothing is done any more, the context is done already. -/
theorem zero
    (hx : x 0 t = .error .exhausted t) (hlasting : t.Lasting)
    (h : setting.Over t.run.session → Subsides setting x t) :
    Relents setting x 0 t := by
  rintro t' hexhausted ⟨scene, hscene, hover⟩
  cases hx.symm.trans hexhausted
  exact h (hover.outlasts (hlasting.now scene hscene))

theorem succ
    {y : Nat → Told α} (h : Relents setting x fuel t)
    (hy : ∀ fuel, y (fuel + 1) = x fuel) :
    Relents setting y (fuel + 1) t := by
  intro t' hexhausted hdone
  rw [hy] at hexhausted
  exact (h t' hexhausted hdone).succ hy

theorem bind
    (hx : Rising x) (hf : ∀ a, Rising fun n => f n a) (h : Relents setting x fuel t)
    (hrest : ∀ a t', setting.Over t'.run.session → Subsides setting (fun n => f n a) t')
    (hnext : ∀ a t', x fuel t = .ok a t' → Relents setting (fun n => f n a) fuel t') :
    Relents setting (fun n => x n >>= f n) fuel t := by
  intro t' hexhausted hdone
  cases hresult : x fuel t with
  | ok a u =>
    have hsecond := (bind_eq_of_eq_ok hresult).symm.trans hexhausted
    exact .after fuel hx (hf a) hresult (hnext a u hresult t' hsecond hdone)
  | error cause u =>
    cases (bind_eq_of_eq_error hresult).symm.trans hexhausted
    exact .bind hx hf (h t' hresult hdone) hrest

/-- What follows does not wait. -/
theorem bind_prompt
    {f : α → Told β} (hx : Rising x) (h : Relents setting x fuel t)
    (hf : ∀ {I}, OnContexts I → ∀ a, Prompt I (fun _ => True) (f a)) :
    Relents setting (fun n => x n >>= f) fuel t := by
  refine bind hx (fun a => .const (f a)) h (fun a t' hover => ?_) fun a t' _ => ?_
  · exact .of_prompt (hf (onContexts_over setting) a) hover
  · exact .of_prompt (hf onContexts_true a)

theorem prompt_bind
    {x : Told α} {P : α → Prop} (hx : Prompt (fun _ => True) P x)
    (hf : ∀ a, Rising fun n => f n a)
    (hnext : ∀ a t', x t = .ok a t' → Relents setting (fun n => f n a) fuel t') :
    Relents setting (fun n => x >>= f n) fuel t := by
  intro t' hexhausted hdone
  cases hresult : x t with
  | ok a u =>
    have hsecond := (bind_eq_of_eq_ok hresult).symm.trans hexhausted
    exact .after fuel (.const x) (hf a) hresult (hnext a u hresult t' hsecond hdone)
  | error cause u =>
    cases (bind_eq_of_eq_error hresult).symm.trans hexhausted
    exact absurd hresult hx.ne_exhausted

end Relents
end Told

namespace Engine

open Exec Told

/-! ## Code in two parts -/

section

variable (fuel : Nat) (setting : Setting) (module : UInt32) (position : Nat)

/-- Does what an instruction asks for. -/
def tellFollow (aim : Transfer × Nat) : Told Signal :=
  match aim.1 with
  | .next => pure .next
  | .enter isLoop params results body =>
    tellBlock fuel setting module (position + aim.2) isLoop params results body
  | .branch label => silent (branch label)
  | .ret => do
    silent (rearrange Stack.ret)
    pure .ret
  | .call function => do
    tellCall fuel setting (position + 1) function
    pure .next

theorem tellInstr_succ (instr : Instr) :
    tellInstr (fuel + 1) setting module position instr =
      tellDispatch setting module position instr >>= tellFollow fuel setting module
        position := by
  rw [tellInstr]
  rfl

def tellNext (rest : List Instr) (signal : Signal) : Told Signal :=
  match signal with
  | .next => tellSequence fuel setting module position rest
  | signal => pure signal

theorem tellSequence_cons (instr : Instr) (rest : List Instr) :
    tellSequence (fuel + 1) setting module position (instr :: rest) =
      tellInstr fuel setting module position instr >>= tellNext fuel setting module
        (position + instr.extent) rest := by
  rw [tellSequence]
  rfl

/-- Leaves the body of a structured instruction or restarts it. -/
def tellOut (isLoop : Bool) (params results : Nat) (body : List Instr)
    (signal : Signal) : Told Signal :=
  match signal with
  | .next => silent (fallThrough results)
  | .ret => pure .ret
  | .branch (depth + 1) => pure (.branch depth)
  | .branch 0 =>
    if isLoop then
      tellRestart setting position >>= fun _ =>
        tellBlock fuel setting module position isLoop params results body
    else pure .next

theorem tellBlock_succ (isLoop : Bool) (params results : Nat) (body : List Instr) :
    tellBlock (fuel + 1) setting module position isLoop params results body =
      silent (openBlock params (if isLoop then params else results)) >>= fun _ =>
        tellSequence fuel setting module position body >>=
          tellOut fuel setting module position isLoop params results body := by
  rw [tellBlock]
  rfl

/-- Carries out a call that was begun. -/
def tellServe (function : UInt32) (summons : Summons) : Told Unit :=
  match summons with
  | .host name program =>
    silent (onSession (runHost fuel setting.context program)) >>= fun hostEnd =>
      tell position .answered >>= fun _ =>
        silent (finishHost function name hostEnd) >>= fun _ =>
        tellLeave setting position
  | .body f arity params =>
    silent (activate f arity params) >>= fun outer =>
      tellSequence fuel setting f.module 0 f.body >>= fun signal =>
      silent (leaveBody f.name arity outer signal) >>= fun _ =>
        tellLeave setting position

theorem tellCall_succ (function : UInt32) :
    tellCall (fuel + 1) setting position function =
      tellSummon setting position function >>= tellServe fuel setting position
        function := by
  rw [tellCall]
  rfl

end

/-! ## A larger bound changes nothing that was finished -/

theorem persists_host (fuel : Nat) (context : ContextRef) (program : HostProgram) :
    Persists (silent (onSession (runHost fuel context program)))
      (silent (onSession (runHost (fuel + 1) context program))) := by
  intro t
  have hhost := (Reference.stable fuel).host context program t.run.session
  rw [← (agrees fuel).host, ← (agrees (fuel + 1)).host] at hhost
  obtain ⟨s, hexhausted⟩ | hsame := hhost
  · refine .inl ⟨t.goOn { t.run with session := s }, silent_of_error ?_⟩
    simp only [onSession, hexhausted]
    rfl
  · refine .inr ?_
    simp only [silent, onSession, hsame]

/-- One more unit of the bound changes nothing that was finished. -/
structure Enduring (fuel : Nat) : Prop where
  instruction : ∀ setting module position instr,
    Persists (tellInstr fuel setting module position instr)
      (tellInstr (fuel + 1) setting module position instr)
  sequence : ∀ setting module position body,
    Persists (tellSequence fuel setting module position body)
      (tellSequence (fuel + 1) setting module position body)
  block : ∀ setting module position isLoop params results body,
    Persists (tellBlock fuel setting module position isLoop params results body)
      (tellBlock (fuel + 1) setting module position isLoop params results body)
  call : ∀ setting position function,
    Persists (tellCall fuel setting position function)
      (tellCall (fuel + 1) setting position function)

namespace Enduring

variable {fuel : Nat} (h : Enduring fuel) (setting : Setting) (module : UInt32)
  (position : Nat)
include h

theorem follow (aim : Transfer × Nat) :
    Persists (tellFollow fuel setting module position aim)
      (tellFollow (fuel + 1) setting module position aim) := by
  obtain ⟨transfer, offset⟩ := aim
  cases transfer with
  | next | branch | ret => exact .refl _
  | enter isLoop params results body =>
      exact h.block setting module _ isLoop params results body
  | call function => exact (h.call setting _ function).bind fun _ => .refl _

theorem next (rest : List Instr) (signal : Signal) :
    Persists (tellNext fuel setting module position rest signal)
      (tellNext (fuel + 1) setting module position rest signal) := by
  cases signal with
  | next => exact h.sequence setting module position rest
  | branch | ret => exact .refl _

theorem out (isLoop : Bool) (params results : Nat) (body : List Instr)
    (signal : Signal) :
    Persists (tellOut fuel setting module position isLoop params results body signal)
      (tellOut (fuel + 1) setting module position isLoop params results body
        signal) := by
  cases signal with
  | next | ret => exact .refl _
  | branch depth =>
    cases depth with
    | succ => exact .refl _
    | zero =>
      cases isLoop with
      | false => exact .refl _
      | true =>
          exact (Persists.refl _).bind fun _ =>
            h.block setting module position true params results body

theorem serve (function : UInt32) (summons : Summons) :
    Persists (tellServe fuel setting position function summons)
      (tellServe (fuel + 1) setting position function summons) := by
  cases summons with
  | host name program =>
      exact (persists_host fuel setting.context program).bind fun _ => .refl _
  | body f arity params =>
    exact (Persists.refl _).bind fun _ => (h.sequence setting f.module 0 f.body).bind
      fun _ => .refl _

end Enduring

theorem enduring (fuel : Nat) : Enduring fuel := by
  induction fuel with
  | zero =>
    exact ⟨fun _ _ _ _ => .throw _, fun _ _ _ _ => .throw _,
      fun _ _ _ _ _ _ _ => .throw _, fun _ _ _ => .throw _⟩
  | succ fuel ih =>
    refine ⟨fun setting module position instr =>
        ?_, fun setting module position body => ?_,
      fun setting module position isLoop params results body =>
        ?_, fun setting position function => ?_⟩
    · rw [tellInstr_succ, tellInstr_succ]
      exact (Persists.refl _).bind (ih.follow setting module position)
    · cases body with
      | nil => exact .refl _
      | cons instr rest =>
        rw [tellSequence_cons, tellSequence_cons]
        exact (ih.instruction setting module position instr).bind
          (ih.next setting module _ rest)
    · rw [tellBlock_succ, tellBlock_succ]
      refine (Persists.refl _).bind fun _ =>
        (ih.sequence setting module position body).bind ?_
      exact ih.out setting module position isLoop params results body
    · rw [tellCall_succ, tellCall_succ]
      exact (Persists.refl _).bind (ih.serve setting position function)

section

variable (setting : Setting) (module : UInt32) (position : Nat)

theorem rising_instr (instr : Instr) :
    Rising fun fuel => tellInstr fuel setting module position instr :=
  fun fuel => (enduring fuel).instruction setting module position instr

theorem rising_sequence (body : List Instr) :
    Rising fun fuel => tellSequence fuel setting module position body :=
  fun fuel => (enduring fuel).sequence setting module position body

theorem rising_block (isLoop : Bool) (params results : Nat) (body : List Instr) :
    Rising fun fuel => tellBlock fuel setting module position isLoop params
      results body :=
  fun fuel => (enduring fuel).block setting module position isLoop params results body

theorem rising_call (function : UInt32) :
    Rising fun fuel => tellCall fuel setting position function :=
  fun fuel => (enduring fuel).call setting position function

theorem rising_follow (aim : Transfer × Nat) :
    Rising fun fuel => tellFollow fuel setting module position aim :=
  fun fuel => (enduring fuel).follow setting module position aim

theorem rising_next (rest : List Instr) (signal : Signal) :
    Rising fun fuel => tellNext fuel setting module position rest signal :=
  fun fuel => (enduring fuel).next setting module position rest signal

theorem rising_out (isLoop : Bool) (params results : Nat) (body : List Instr)
    (signal : Signal) :
    Rising fun fuel => tellOut fuel setting module position isLoop params results
      body signal :=
  fun fuel => (enduring fuel).out setting module position isLoop params
    results body signal

theorem rising_serve (function : UInt32) (summons : Summons) :
    Rising fun fuel => tellServe fuel setting position function summons :=
  fun fuel => (enduring fuel).serve setting position function summons

end

end Engine
end WebAssembly
