import WebAssembly.Proofs.Bounds

/-!
# Runs halt once their context is done

The bound on the length of a run does not matter for a run in which the context becomes
done.  From then on code is only executed to its end, since neither a call nor another
round of a loop is allowed, and so some bound is enough.
-/

namespace WebAssembly

theorem Instr.Aims.extentOf_lt
    {instr : Instr} {aim : Transfer × Nat} {isLoop : Bool} {params results : Nat}
    {body : List Instr} (h : instr.Aims aim)
    (henter : aim.1 = .enter isLoop params results body) :
    Instr.extentOf body < instr.extent := by
  obtain ⟨before, after, htext, -⟩ := h henter
  simp only [Instr.extent, Instr.extentOf, htext, List.length_append, List.length_cons]
  omega

namespace Engine

open Exec Told

/-! ## Code under a context that is done -/

section

variable {I : Session → Prop} (hI : OnContexts I) (setting : Setting)
include hI

theorem prompt_dispatch (module : UInt32) (position : Nat) (instr : Instr) :
    Prompt I instr.Aims (tellDispatch setting module position instr) := by
  refine (Prompt.silent hI (calm_countStep setting)).bind fun _ _ =>
    (Prompt.tell _ _).bind fun _ _ => ?_
  exact (Prompt.silent hI (calm_record setting _)).bind fun _ _ =>
    .silent hI (calm_steer module instr)

theorem prompt_leave (position : Nat) :
    Prompt I (fun _ => True) (tellLeave setting position) := by
  have hexit : Prompt I (fun _ => True) (silent (exit setting)) := by
    intro t ht
    obtain ⟨r, -, hsession, hexit⟩ := exists_exit setting t.run
    exact Ends.of_eq_ok (silent_of_ok hexit) ⟨trivial,
      hI (congrArg Session.contexts hsession) ht⟩
  exact hexit.bind fun _ _ => .tell _ _

/-- What is left to do when a host program has ended. -/
theorem prompt_answered (position : Nat) (function : UInt32) (name : String)
    (hostEnd : HostEnd) :
    Prompt I (fun _ => True) (tell position .answered >>= fun _ =>
      silent (finishHost function name hostEnd) >>= fun _ =>
        tellLeave setting position) :=
  (Prompt.tell _ _).bind fun _ _ =>
    (Prompt.silent hI (calm_finishHost function name hostEnd)).bind fun _ _ =>
    prompt_leave hI setting position

/-- What is left to do when a body has ended. -/
theorem prompt_leaveBody (position : Nat) (function : String) (arity : Nat)
    (outer : Array Val) (signal : Signal) :
    Prompt I (fun _ => True) (silent (leaveBody function arity outer signal) >>=
      fun _ => tellLeave setting position) :=
  (Prompt.silent hI (calm_leaveBody function arity outer signal)).bind fun _ _ =>
    prompt_leave hI setting position

theorem prompt_ret :
    Prompt I (fun _ => True) (silent (rearrange Stack.ret) >>= fun _ =>
      (pure .ret : Told Signal)) :=
  (Prompt.silent hI calm_rearrange).bind fun _ _ => .pure trivial

end

variable {setting : Setting}

/-- A loop is restarted only while the context is not done. -/
theorem live_restart (setting : Setting) (position : Nat) (t : Telling) :
    Ends (tellRestart setting position) t (fun _ _ => ¬setting.Over t.run.session)
      fun cause _ =>
      cause ≠ .exhausted := by
  obtain ⟨reason, -, herror⟩ | ⟨hlive, r, -, hok⟩ := restart_cases setting t.run
  · exact Ends.of_eq_error (attempt_of_error herror) Abort.noConfusion
  · exact Ends.of_eq_ok (attempt_of_ok hok) (Setting.not_over_of_live hlive)

/-- A function is entered only while the context is not done, and before it has done
anything. -/
theorem live_summon (setting : Setting) (position : Nat) (function : UInt32)
    (t : Telling) :
    Ends (tellSummon setting position function) t
      (fun _ t' => ¬setting.Over t.run.session ∧ ¬setting.Over t'.run.session)
        fun cause _ => cause ≠ .exhausted := by
  cases hf : t.run.session.store.functions[function.toNat]? with
  | none => exact Ends.of_eq_error (tellSummon_of_none hf) Abort.noConfusion
  | some f =>
    refine Ends.bind_of_eq_ok (silent_of_ok (funcInst_of_some hf)) ?_
    obtain ⟨-, herror⟩ | ⟨-, reason, -, herror⟩ | ⟨-, hlive, r, -, hsession, hok⟩ :=
      enter_cases setting f.name t.run
    · exact Ends.of_eq_error (attempt_of_error herror) Abort.noConfusion
    · exact Ends.of_eq_error (attempt_of_error herror) Abort.noConfusion
    · have hnot := Setting.not_over_of_live hlive
      have hI := onContexts_not_over setting
      have hrest : Prompt (fun s => ¬setting.Over s) (fun _ => True)
          (tell position (.entered f) >>= fun _ => silent (receive f) >>= fun received =>
            silent (announce received.2) >>= fun _ => pure received.1) :=
        (Prompt.tell _ _).bind fun _ _ =>
          (Prompt.silent hI (calm_receive f)).bind fun received _ =>
            (Prompt.silent hI (calm_announce received.2)).bind fun _ _ => .pure trivial
      have hends := hrest ((t.tell position .calling).goOn r)
        (hI (congrArg Session.contexts hsession) hnot)
      have hentered : silent (enter setting f.name) (t.tell position .calling) =
          .ok () ((t.tell position .calling).goOn r) :=
        silent_of_ok hok
      refine Ends.bind_of_eq_ok rfl (Ends.bind_of_eq_ok hentered ?_)
      exact hends.mono (fun _ _ h => ⟨hnot, h.2⟩) fun _ _ => id

theorem prompt_restart (position : Nat) :
    Prompt (fun _ => True) (fun _ => True) (tellRestart setting position) :=
  fun t _ => (live_restart setting position t).mono (fun _ _ _ => ⟨trivial, trivial⟩)
    fun _ _ => id

theorem prompt_summon (position : Nat) (function : UInt32) :
    Prompt (fun _ => True) (fun _ => True) (tellSummon setting position function) :=
  fun t _ => (live_summon setting position function t).mono
    (fun _ _ _ => ⟨trivial, trivial⟩) fun _ _ => id

theorem subsides_out
    {isLoop : Bool} {params results : Nat} {body : List Instr} {t : Telling}
    (module : UInt32) (position : Nat) (signal : Signal)
    (hover : setting.Over t.run.session) :
    Subsides setting (fun fuel => tellOut fuel setting module position isLoop params
      results body signal) t := by
  have hI := onContexts_over setting
  cases signal with
  | next => exact .of_prompt (.silent hI (calm_fallThrough results)) hover
  | ret => exact .pure _ hover
  | branch depth =>
    cases depth with
    | succ depth => exact .pure _ hover
    | zero =>
      cases isLoop with
      | false => exact .pure _ hover
      | true =>
        -- Another round is refused.
        refine ⟨0, (live_restart setting position t).bind fun _ _ hlive => ?_⟩
        exact absurd hover hlive

theorem subsides_block
    {body : List Instr} {t : Telling} (module : UInt32) (position : Nat) (isLoop : Bool)
    (params results : Nat) (hbody : ∀ t, setting.Over t.run.session →
      Subsides setting (fun fuel => tellSequence fuel setting module position body) t)
    (hover : setting.Over t.run.session) :
    Subsides setting (fun fuel => tellBlock fuel setting module position isLoop params
      results body) t := by
  have hI := onContexts_over setting
  refine Subsides.succ ?_ fun fuel => tellBlock_succ fuel setting module position isLoop
    params results body
  have hsequence := rising_sequence setting module position body
  have hout := rising_out setting module position isLoop params results body
  refine .prompt_bind (.silent hI (calm_openBlock _ _)) (fun _ n => (hsequence n).bind
    fun signal => hout signal n)
    hover fun _ t₁ _ h₁ => ?_
  exact .bind hsequence hout (hbody t₁ h₁) fun signal t₂ h₂ =>
    subsides_out module position signal h₂

theorem subsides_call
    {t : Telling} (position : Nat) (function : UInt32)
    (hover : setting.Over t.run.session) :
    Subsides setting (fun fuel => tellCall fuel setting position function) t := by
  have hrefused : Ends (tellSummon setting position function >>=
      tellServe 0 setting position function) t
      (fun _ t' => setting.Over t'.run.session) fun cause _ => cause ≠ .exhausted :=
    (live_summon setting position function t).bind fun _ _ h => absurd hover h.1
  exact ⟨1, hrefused⟩

theorem subsides_follow
    {aim : Transfer × Nat} {t : Telling} (module : UInt32) (position : Nat)
    (hbody : ∀ {isLoop params results body}, aim.1 = .enter isLoop params results body →
      ∀ position t,
      setting.Over t.run.session → Subsides setting
        (fun fuel => tellSequence fuel setting module position body) t)
    (hover : setting.Over t.run.session) :
    Subsides setting (fun fuel => tellFollow fuel setting module position aim) t := by
  have hI := onContexts_over setting
  obtain ⟨transfer, offset⟩ := aim
  cases transfer with
  | next => exact .pure _ hover
  | enter isLoop params results body =>
    exact subsides_block module (position + offset) isLoop params results
      (hbody rfl _) hover
  | branch label => exact .of_prompt (.silent hI (calm_branch label)) hover
  | ret => exact .of_prompt (prompt_ret hI) hover
  | call function =>
    refine .bind (rising_call setting (position + 1) function) (fun _ => .const _)
      (subsides_call _ function hover) ?_
    exact fun _ t₁ h₁ => .pure _ h₁

theorem subsides_instr
    {instr : Instr} {t : Telling} (module : UInt32) (position : Nat)
    (hinside : ∀ body, Instr.extentOf body < instr.extent → ∀ position t,
      setting.Over t.run.session → Subsides setting
        (fun fuel => tellSequence fuel setting module position body) t)
    (hover : setting.Over t.run.session) :
    Subsides setting (fun fuel => tellInstr fuel setting module position instr) t := by
  refine Subsides.succ ?_ fun fuel => tellInstr_succ fuel setting module position instr
  refine .prompt_bind (prompt_dispatch (onContexts_over setting) setting module
    position instr)
    (rising_follow setting module position) hover fun aim t₁ haim h₁ => ?_
  exact subsides_follow module position (fun henter =>
    hinside _ (haim.extentOf_lt henter)) h₁

/-- Code under a context that is done comes to an end. -/
theorem subsides_sequence
    (module : UInt32) (position : Nat) (body : List Instr) (t : Telling)
    (hover : setting.Over t.run.session) :
    Subsides setting (fun fuel =>
      tellSequence fuel setting module position body) t := by
  -- By induction on the length of the text: the bodies of an instruction are shorter,
  -- and so is what follows it.
  induction hextent : Instr.extentOf body using Nat.strongRecOn
    generalizing position body t with
  | _ extent ih =>
    subst hextent
    cases body with
    | nil => exact Subsides.succ (.pure _ hover) fun _ => rfl
    | cons instr rest =>
      have hlength := Instr.extentOf_cons instr rest
      have hpos := instr.extent_pos
      have hnext := rising_next setting module (position + instr.extent) rest
      refine Subsides.succ ?_ fun fuel =>
        tellSequence_cons fuel setting module position instr rest
      refine .bind (rising_instr setting module position instr) hnext ?_
        fun signal t₁ h₁ => ?_
      · refine subsides_instr module position (fun body hlt position t₁ h₁ => ?_) hover
        exact ih _ (by omega) position body t₁ h₁ rfl
      · cases signal with
        | next => exact ih _ (by omega) _ rest t₁ h₁ rfl
        | branch | ret => exact .pure _ h₁

/-! ## Code in which the context becomes done -/

theorem travels_outlasting (setting : Setting) (fuel : Nat) :
    Travels setting Session.Outlasts fuel :=
  travels fun n _ program s => (remembering n).host setting.context program s

end Engine

theorem Journey.of_ok
    {setting : Setting} {C : List FuncInst → Prop} {α : Type} {P : α → Prop}
    {origin : Nat × Telling} {goal : Nat} {frames : List FuncInst} {x : Told α} {a : α}
    {t : Telling} (h : Journey setting Session.Outlasts C P origin goal frames x)
    (hlasting : origin.2.Lasting) (hok : x origin.2 = .ok a t) :
    P a ∧ pending t.scenes = frames ∧ t.Lasting := by
  obtain ⟨ha, hframes, hmoves⟩ := h.onOk hok
  exact ⟨ha, hframes, hmoves.lasting hlasting⟩

namespace Engine

open Exec Told

/-- Code that is not ended within the bound, although the context became done, is ended
within some other bound. -/
structure Yields (setting : Setting) (fuel : Nat) : Prop where
  instruction : ∀ module position instr t f rest, pending t.scenes = f :: rest →
    f.Holds position instr.occurrences → t.Lasting →
    Relents setting (fun n => tellInstr n setting module position instr) fuel t
  sequence : ∀ module position body t f rest, pending t.scenes = f :: rest →
    f.Holds position (Instr.occurrencesIn body) → t.Lasting →
    Relents setting (fun n => tellSequence n setting module position body) fuel t
  block : ∀ module position isLoop params results body t f rest,
    pending t.scenes = f :: rest →
    f.Holds position (Instr.occurrencesIn body) → t.Lasting →
    Relents setting (fun n => tellBlock n setting module position isLoop params results
      body) fuel t
  call : ∀ position function t, t.Lasting →
    Relents setting (fun n => tellCall n setting position function) fuel t

namespace Yields

variable {fuel : Nat} (ih : Yields setting fuel) {t : Telling} {f : FuncInst}
  {rest : List FuncInst}
include ih

theorem instruction_succ
    (module : UInt32) (position : Nat) (instr : Instr) (t : Telling) (f : FuncInst)
    (rest : List FuncInst) (hframes : pending t.scenes = f :: rest)
    (hholds : f.Holds position instr.occurrences) (hlasting : t.Lasting) :
    Relents setting (fun n => tellInstr n setting module position instr)
      (fuel + 1) t := by
  refine Relents.succ ?_ fun n => tellInstr_succ n setting module position instr
  refine .prompt_bind (prompt_dispatch onContexts_true setting module position instr)
    (rising_follow setting module position) fun aim t₁ hok => ?_
  obtain ⟨haim, h₁, hlasting₁⟩ :=
    (journey_dispatch module hframes hholds).of_ok hlasting hok
  obtain ⟨transfer, offset⟩ := aim
  cases transfer with
  | next => exact .pure _
  | branch label => exact .of_prompt (.silent onContexts_true (calm_branch label))
  | ret => exact .of_prompt (prompt_ret onContexts_true)
  | call function =>
    exact .bind_prompt (rising_call setting (position + 1) function)
      (ih.call (position + 1) function t₁ hlasting₁) fun _ _ => .pure trivial
  | enter isLoop params results body =>
    obtain ⟨before, after, htext, rfl⟩ := haim rfl
    rw [htext] at hholds
    exact ih.block module _ isLoop params results body t₁ f rest h₁
      hholds.right.left hlasting₁

theorem sequence_succ
    (module : UInt32) (position : Nat) (body : List Instr) (t : Telling) (f : FuncInst)
    (rest : List FuncInst) (hframes : pending t.scenes = f :: rest)
    (hholds : f.Holds position (Instr.occurrencesIn body)) (hlasting : t.Lasting) :
    Relents setting (fun n => tellSequence n setting module position body)
      (fuel + 1) t := by
  cases body with
  | nil => exact .succ (.pure _) fun _ => rfl
  | cons instr following =>
    have hnext := rising_next setting module (position + instr.extent) following
    refine Relents.succ ?_ fun n =>
      tellSequence_cons n setting module position instr following
    refine .bind (rising_instr setting module position instr) hnext
      (ih.instruction module position instr t f rest hframes hholds.left hlasting)
        (fun signal t₁ h₁ => ?_)
      fun signal t₁ hok => ?_
    · cases signal with
      | next => exact subsides_sequence module _ following t₁ h₁
      | branch | ret => exact .pure _ h₁
    · have hjourney := (travels_outlasting setting fuel).instruction module position
          instr t f rest hframes hholds.left
      obtain ⟨-, h₁, hlasting₁⟩ := hjourney.of_ok hlasting hok
      cases signal with
      | next => exact ih.sequence module _ following t₁ f rest h₁ hholds.right hlasting₁
      | branch | ret => exact .pure _

theorem block_succ
    (module : UInt32) (position : Nat) (isLoop : Bool) (params results : Nat)
    (body : List Instr) (t : Telling) (f : FuncInst) (rest : List FuncInst)
    (hframes : pending t.scenes = f :: rest)
    (hholds : f.Holds position (Instr.occurrencesIn body)) (hlasting : t.Lasting) :
    Relents setting (fun n => tellBlock n setting module position isLoop params results
      body) (fuel + 1) t := by
  have hsequence := rising_sequence setting module position body
  have hout := rising_out setting module position isLoop params results body
  have hopen := calm_openBlock params (if isLoop then params else results)
  refine Relents.succ ?_ fun n => tellBlock_succ n setting module position isLoop params
    results body
  refine .prompt_bind (.silent onContexts_true hopen) (fun _ n => (hsequence n).bind
    fun signal => hout signal n)
    fun _ t₁ hok => ?_
  have hjourney : Journey setting Session.Outlasts (f :: rest <:+ ·)
      (fun _ => True) (position, t) position (f :: rest)
      (silent (openBlock params (if isLoop then params else results))) :=
    .silent hopen List.suffix_rfl hframes
  obtain ⟨-, h₁, hlasting₁⟩ := hjourney.of_ok hlasting hok
  refine .bind hsequence hout (ih.sequence module position body t₁ f rest h₁
    hholds hlasting₁)
    (fun signal t₂ h₂ => subsides_out module position signal h₂)
      fun signal t₂ hok₂ => ?_
  have hjourney₂ := (travels_outlasting setting fuel).sequence module position body t₁ f
    rest h₁ hholds
  obtain ⟨-, h₂, hlasting₂⟩ := hjourney₂.of_ok hlasting₁ hok₂
  cases signal with
  | next => exact .of_prompt (.silent onContexts_true (calm_fallThrough results))
  | ret => exact .pure _
  | branch depth =>
    cases depth with
    | succ => exact .pure _
    | zero =>
      cases isLoop with
      | false => exact .pure _
      | true =>
        refine .prompt_bind (prompt_restart position)
          (fun _ => rising_block setting module position true params results body)
            fun _ t₃ hok₃ => ?_
        have hjourney₃ : Journey setting Session.Outlasts (f :: rest <:+ ·)
            (fun _ => True) (position, t₂) position
            (f :: rest) (tellRestart setting position) :=
          journey_restart List.suffix_rfl position h₂
        obtain ⟨-, h₃, hlasting₃⟩ := hjourney₃.of_ok hlasting₂ hok₃
        exact ih.block module position true params results body t₃ f rest h₃
          hholds hlasting₃

theorem call_succ
    (position : Nat) (function : UInt32) (t : Telling) (hlasting : t.Lasting) :
    Relents setting (fun n => tellCall n setting position function) (fuel + 1) t := by
  refine Relents.succ ?_ fun n => tellCall_succ n setting position function
  refine .prompt_bind (prompt_summon position function)
    (rising_serve setting position function)
    fun summons t₁ hok => ?_
  cases hf : t.run.session.store.functions[function.toNat]? with
  | none => cases hok.symm.trans (tellSummon_of_none hf)
  | some f =>
    obtain ⟨hof, h₁, hlasting₁⟩ := (journey_summon position hf).of_ok hlasting hok
    have hlive := (live_summon setting position function t).onOk hok
    cases summons with
    | host name program =>
      refine .bind_prompt (persists_host · setting.context program) ?_ fun hI =>
        prompt_answered hI setting position function name
      -- The context is not done when the host function is entered, and a host program
      -- that goes on tells nothing.
      rintro t₂ hexhausted ⟨scene, hscene, hover⟩
      have hscenes : t₂.scenes = t₁.scenes := by
        simp only [silent] at hexhausted
        split at hexhausted <;> cases hexhausted
        rfl
      exact absurd hover (hlasting₁.not_over hlive.2 scene (hscenes ▸ hscene))
    | body g arity params =>
      obtain ⟨-, rfl⟩ := hof
      have hactivate := calm_activate g arity params
      have hsequence := rising_sequence setting g.module 0 g.body
      refine .prompt_bind (.silent onContexts_true hactivate)
        (fun _ n => (hsequence n).bind fun _ => .refl _)
        fun outer t₂ hok₂ => ?_
      have hjourney : Journey setting Session.Outlasts (fun _ => True)
          (fun _ => True) (0, t₁) 0 (g :: pending t.scenes)
          (silent (activate g arity params)) :=
        .silent hactivate trivial h₁
      obtain ⟨-, h₂, hlasting₂⟩ := hjourney.of_ok hlasting₁ hok₂
      refine .bind_prompt hsequence (ih.sequence g.module 0 g.body t₂ g _ h₂
        (.whole g) hlasting₂) ?_
      exact fun hI signal =>
        prompt_leaveBody hI setting position g.name arity outer signal

end Yields

theorem yields (setting : Setting) (fuel : Nat) : Yields setting fuel := by
  induction fuel with
  | zero =>
    exact {
      instruction := fun module position instr t _ _ _ _ hlasting =>
        .zero rfl hlasting
          (subsides_instr module position fun body _ position =>
            subsides_sequence module position body)
      sequence := fun module position body t _ _ _ _ hlasting =>
        .zero rfl hlasting (subsides_sequence module position body t)
      block := fun module position isLoop params results body t _ _ _ _ hlasting =>
        .zero rfl hlasting
          (subsides_block module position isLoop params results
            (subsides_sequence module position body))
      call := fun position function t hlasting =>
        .zero rfl hlasting (subsides_call position function) }
  | succ fuel ih =>
    exact {
      instruction := ih.instruction_succ
      sequence := ih.sequence_succ
      block := ih.block_succ
      call := ih.call_succ }

end Engine
end WebAssembly
