import WebAssembly.Proofs.Moves

/-!
# Contexts that are done stay done

Nothing that is done to a session makes a context live again or gives it another reason.
That includes whatever the program of a host function does, nested invocations and
instantiations among it.
-/

namespace WebAssembly

/-- Every context that is done in the first session is done in the second one, for the
same reason. -/
def Session.Outlasts (s s' : Session) : Prop :=
  ∀ context reason, s.doneReason context = some reason →
    s'.doneReason context = some reason

namespace Session.Outlasts

variable {s s' s'' : Session}

theorem refl (s : Session) : s.Outlasts s :=
  fun _ _ => id

theorem trans
    (h : s.Outlasts s') (h' : s'.Outlasts s'') : s.Outlasts s'' :=
  fun context reason hdone => h' context reason (h context reason hdone)

theorem of_contexts
    (h : s'.contexts = s.contexts) : s.Outlasts s' := by
  intro context reason hdone
  cases context with
  | background => cases hdone
  | opened index =>
    rw [doneReason, h]
    exact hdone

/-- It is enough that entries of the list of contexts that are done stay as they are. -/
theorem of_getElem?
    (h : ∀ (index : Nat) reason, s.contexts[index]? = some (some reason) →
      s'.contexts[index]? = some (some reason)) :
    s.Outlasts s' := by
  intro context reason hdone
  cases context with
  | background => cases hdone
  | opened index =>
    rw [doneReason] at hdone ⊢
    rw [h index reason (Option.join_eq_some_iff.mp hdone)]
    rfl

end Session.Outlasts

namespace Session

theorem outlasts_push (s : Session) (done : Option DoneReason) (latest : Option Nat) :
    s.Outlasts { s with contexts := s.contexts.push done, latest } := by
  refine .of_getElem? fun index reason hdone => ?_
  obtain ⟨hlt, -⟩ := Array.getElem?_eq_some_iff.mp hdone
  rw [Array.getElem?_push_lt hlt]
  exact (Array.getElem?_eq_getElem hlt).symm.trans hdone

theorem outlasts_openContext (s : Session) (inherited : ContextRef)
    (choice : ContextChoice) :
    s.Outlasts (s.openContext inherited choice).2 := by
  cases choice with
  | background | inherited => exact .refl s
  | canceled => exact s.outlasts_push (some .canceled) s.latest
  | expired => exact s.outlasts_push (some .deadlineExceeded) (some s.contexts.size)
  | cancelable => exact s.outlasts_push none (some s.contexts.size)

/-- A context that is done for a reason is not canceled for another one. -/
theorem outlasts_cancel (s : Session) : s.Outlasts s.cancel := by
  unfold cancel
  split
  · exact .refl s
  · rename_i latest _
    refine .of_getElem? fun index reason hdone => ?_
    rw [Array.getElem?_modify, hdone]
    split <;> rfl

theorem outlasts_log (s : Session) (entry : LogEntry) : s.Outlasts (s.log entry) := by
  unfold log
  split <;> exact .of_contexts rfl

end Session

/-- The context of the setting is done, and the setting heeds it. -/
def Setting.Over (setting : Setting) (s : Session) : Prop :=
  ∃ reason, setting.interruption s = some reason

namespace Setting

variable {setting : Setting} {s s' : Session}

theorem not_over_of_live
    (h : setting.interruption s = none) : ¬setting.Over s := by
  rintro ⟨reason, hdone⟩
  cases h.symm.trans hdone

theorem interruption_of_done
    (hcloses : setting.config.closeOnContextDone = true) (s : Session) :
    setting.interruption s = s.doneReason setting.context :=
  if_pos hcloses

theorem interruption_outlasts
    {reason : DoneReason} (h : setting.interruption s = some reason)
    (houtlasts : s.Outlasts s') :
    setting.interruption s' = some reason := by
  unfold interruption at h ⊢
  split at h
  · rename_i hcloses
    rw [if_pos hcloses]
    exact houtlasts _ _ h
  · cases h

theorem Over.outlasts
    (h : setting.Over s) (houtlasts : s.Outlasts s') : setting.Over s' := by
  obtain ⟨reason, hdone⟩ := h
  exact ⟨reason, interruption_outlasts hdone houtlasts⟩

theorem Over.of_contexts
    (h : setting.Over s) (hcontexts : s'.contexts = s.contexts) : setting.Over s' :=
  h.outlasts (.of_contexts hcontexts)

end Setting

/-! ## Commands -/

namespace Operation

variable {α β : Type} {base : Session}

/-- Whatever becomes of the operation, done contexts stay done. -/
def Remembers (x : Operation α) : Prop :=
  ∀ s, Ends x s (fun _ s' => s.Outlasts s') fun _ s' => s.Outlasts s'

namespace Remembers

variable {x : Operation α} {f : α → Operation β}

theorem bind
    (hx : Remembers x) (hf : ∀ a, Remembers (f a)) : Remembers (x >>= f) := by
  intro s
  refine (hx s).bind fun a s' h => ?_
  exact (hf a s').mono (fun _ _ => h.trans) fun _ _ => h.trans

theorem pure (a : α) : Remembers (Pure.pure a) :=
  fun s => .refl s

theorem throw (error : Error) : Remembers (MonadExcept.throw error : Operation α) :=
  fun s => .refl s

theorem map
    (hx : Remembers x) (g : α → β) : Remembers (g <$> x) :=
  fun s => Ends.map (hx s)

theorem modified
    {change : Session → Session} (h : ∀ s : Session, s.Outlasts (change s)) :
    Remembers (modify change : Operation PUnit) :=
  h

theorem get_bind
    {f : Session → Operation β} (h : ∀ s, Remembers (f s)) : Remembers (get >>= f) :=
  fun s => h s s

theorem withStore (store : Session → Store) :
    Remembers (modify fun s => s.withStore (store s) : Operation PUnit) :=
  modified fun _ => .of_contexts rfl

end Remembers

theorem remembers_present (entry : Option α) : Remembers (present entry) := by
  cases entry with
  | none => exact .throw _
  | some a => exact .pure a

theorem remembers_ofAttempt {ε : Type} (account : ε → Error) (attempt : Attempt ε α) :
    Remembers (ofAttempt account attempt) := by
  unfold ofAttempt
  split
  · exact .pure _
  · exact .throw _
  · exact .throw _

theorem remembers_read (access : Store → Except AccessError α) :
    Remembers (read access) :=
  fun s => ends_read (fun _ _ => .refl s) fun _ _ => .refl s

theorem remembers_write (access : Store → Except AccessError Store) :
    Remembers (write access) :=
  fun s => ends_write (fun _ _ => .of_contexts rfl) fun _ => .refl s

theorem remembers_grow (access : Store → Except AccessError (Option (UInt32 × Store))) :
    Remembers (grow access) := by
  intro s
  unfold Ends grow
  cases access s.store with
  | error => exact .refl s
  | ok grown =>
    cases grown with
    | none => exact .refl s
    | some grown => exact .of_contexts rfl

theorem remembers_alloc {ε : Type} (account : ε → Error)
    (attempt : Store → Attempt ε (UInt32 × Store)) :
    Remembers (alloc account attempt) :=
  .get_bind fun _ => (remembers_ofAttempt _ _).bind fun _ =>
    (Remembers.withStore _).bind fun _ => .pure _

theorem remembers_log (entry : LogEntry) : Remembers (log entry) :=
  .modified fun s => s.outlasts_log entry

theorem remembers_openContext (inherited : ContextRef) (choice : ContextChoice) :
    Remembers (openContext inherited choice) :=
  fun s => s.outlasts_openContext inherited choice

theorem remembers_findExport (module : UInt32) (name : String) (kind : ExternKind) :
    Remembers (findExport module name kind) := by
  refine (remembers_read _).bind fun inst => ?_
  split
  · exact .pure _
  · exact .throw _

theorem remembers_patchSlot (table index : UInt32) (content : Option UInt32) :
    Remembers (patchSlot table index content) := by
  refine (remembers_read _).bind fun t => ?_
  split
  · exact (Remembers.throw _).bind fun _ => .withStore _
  · exact .withStore _

theorem remembers_prepare (m : Option Module) (name : String)
    (externs : List ExternVal) :
    Remembers (prepare m name externs) := by
  cases m with
  | none => exact fun s => .refl s
  | some m =>
    refine (Remembers.pure m).bind fun m => .get_bind fun _ =>
      (remembers_ofAttempt _ _).bind fun imports => ?_
    refine (remembers_log _).bind fun _ => .get_bind fun _ =>
      (remembers_ofAttempt _ _).bind fun _ => ?_
    refine .get_bind fun _ => (remembers_ofAttempt _ _).bind fun _ =>
      .get_bind fun _ => ?_
    refine (remembers_present _).bind fun allocated => ?_
    obtain ⟨store, inst⟩ := allocated
    refine (Remembers.withStore _).bind fun _ => (remembers_log _).bind fun _ => ?_
    refine (remembers_ofAttempt _ _).bind fun _ => (remembers_present _).bind
      fun store => ?_
    refine (Remembers.withStore _).bind fun _ => (remembers_log _).bind fun _ => ?_
    split
    · exact .pure _
    · refine (remembers_present _).bind fun function => (remembers_log _).bind fun _ =>
        .get_bind fun s => ?_
      split
      · exact (Remembers.throw _).bind fun _ => .pure _
      · exact .pure _

theorem remembers_answer (command : Command) : Remembers (answer command) := by
  have hdone {x : Operation Unit} (hx : Remembers x) :
      Remembers (x >>= fun _ => pure Response.done) :=
    hx.bind fun _ => .pure _
  cases command with
  | instantiate | invoke | call => exact .pure _
  | findExport module name kind => exact (remembers_findExport module name kind).map _
  | allocFunction name type host =>
    refine Remembers.map ?_ _
    exact fun s => Session.Outlasts.of_contexts rfl
  | allocTable | allocMemory | allocGlobal => exact (remembers_alloc _ _).map _
  | globalGet | tableSize | tableGet | memorySize | memoryRead | viewTable | viewMemory
  | viewGlobal | viewModule =>
    exact (remembers_read _).map _
  | globalSet | tableSet | memoryWrite => exact hdone (remembers_write _)
  | tableGrow | memoryGrow => exact (remembers_grow _).map _
  | memoryHasSize => exact (remembers_read _).bind fun _ => .pure _
  | viewFunction => exact (remembers_read _).bind fun _ => (remembers_present _).map _
  | counts => exact .get_bind fun _ => .pure _
  | patchFunction | patchElement | patchModule =>
      exact (remembers_read _).bind fun _ => hdone (.withStore _)
  | patchSlot table index content =>
      exact hdone (remembers_patchSlot table index content)
  | cancel => exact hdone (.modified Session.outlasts_cancel)

theorem remembers_request (inherited : ContextRef) (command : Command) :
    Remembers (request inherited command) := by
  cases command with
  | instantiate m name externs choice =>
    refine (remembers_openContext inherited choice).bind fun context =>
      .get_bind fun before => ?_
    refine (remembers_prepare m name externs).bind fun prepared => ?_
    obtain ⟨inst, start⟩ := prepared
    cases start with
    | none => exact ((Remembers.get_bind fun _ => .pure _).map _).map _
    | some function => exact .pure _
  | invoke function args choice =>
      exact (remembers_openContext inherited choice).bind fun _ => .pure _
  | call module name args choice =>
    exact (remembers_findExport module name .func).bind fun _ =>
      (remembers_openContext inherited choice).bind fun _ => .pure _
  | _ => exact (remembers_answer _).map _

theorem remembers_accept (function : UInt32) (args : List Val) :
    Remembers (accept function args) := by
  refine .get_bind fun s => (remembers_present _).bind fun config =>
    (remembers_read _).bind fun f => ?_
  refine (remembers_present _).bind fun type => ?_
  split
  · exact (Remembers.throw _).bind fun _ => .pure _
  · exact .pure _

end Operation

/-! ## Moves and runs -/

/-- If host programs leave done contexts done, then so does every move. -/
theorem Move.outlasts
    {setting : Setting} {place place' : Nat × Telling}
    (h : Move setting Session.Outlasts place place') :
    place.2.run.session.Outlasts place'.2.run.session := by
  cases h with
  | calm kin => exact .of_contexts kin.contexts
  | advance => exact .refl _
  | dispatch => exact .refl _
  | enter _ _ _ session => exact .of_contexts (congrArg Session.contexts session)
  | answer _ _ host => exact host
  | leave _ _ _ session => exact .of_contexts (congrArg Session.contexts session)
  | restart _ _ kin => exact .of_contexts kin.contexts

theorem Moves.outlasts
    {setting : Setting} {place place' : Nat × Telling}
    (h : Moves setting Session.Outlasts place place') :
    place.2.run.session.Outlasts place'.2.run.session := by
  induction h with
  | refl => exact .refl _
  | tail _ hmove ih => exact ih.trans hmove.outlasts

theorem Halt.outlasts
    {setting : Setting} {place : Nat × Telling} {cause : Abort} {t : Telling}
    (h : Halt setting Session.Outlasts place cause t) :
    place.2.run.session.Outlasts t.run.session := by
  cases h with
  | calm kin => exact .of_contexts kin.contexts
  | exhausted | overflow | refuse | stop => exact .refl _
  | host _ _ host => exact host

/-- What was done at a scene is done at every newer one, and now. -/
structure Telling.Lasting (t : Telling) : Prop where
  now : ∀ scene ∈ t.scenes, scene.run.session.Outlasts t.run.session
  scenes : t.scenes.Pairwise fun newer older =>
    older.run.session.Outlasts newer.run.session

namespace Telling.Lasting

variable {t : Telling} {r : Run}

theorem start (s : Session) (args : List Val) : (Telling.start s args).Lasting :=
  ⟨fun _ hscene => absurd hscene List.not_mem_nil, .nil⟩

theorem goOn
    (h : t.Lasting) (hrun : t.run.session.Outlasts r.session) : (t.goOn r).Lasting :=
  ⟨fun scene hscene => (h.now scene hscene).trans hrun, h.scenes⟩

theorem tell
    (h : t.Lasting) (position : Nat) (incident : Incident) :
    (t.tell position incident).Lasting where
  now := by
    intro scene hscene
    obtain rfl | hscene := List.mem_cons.mp hscene
    · exact .refl _
    · exact h.now scene hscene
  scenes := h.scenes.cons h.now

theorem not_over
    {setting : Setting} (h : t.Lasting) (hlive : ¬setting.Over t.run.session) :
    ∀ scene ∈ t.scenes, ¬setting.Over scene.run.session :=
  fun scene hscene hover => hlive (hover.outlasts (h.now scene hscene))

end Telling.Lasting

theorem Move.lasting
    {setting : Setting} {place place' : Nat × Telling}
    (h : Move setting Session.Outlasts place place') (hlasting : place.2.Lasting) :
    place'.2.Lasting := by
  have hrun := h.outlasts
  cases h with
  | calm => exact hlasting.goOn hrun
  | advance => exact hlasting
  | dispatch => exact hlasting.tell _ _
  | enter | restart => exact ((hlasting.tell _ _).goOn hrun).tell _ _
  | answer | leave => exact (hlasting.goOn hrun).tell _ _

theorem Moves.lasting
    {setting : Setting} {place place' : Nat × Telling}
    (h : Moves setting Session.Outlasts place place') (hlasting : place.2.Lasting) :
    place'.2.Lasting := by
  induction h with
  | refl => exact hlasting
  | tail _ hmove ih => exact hmove.lasting ih

namespace Engine

open Exec Told Operation

/-- A run that is forgotten leaves its session, but for an entry of the log. -/
theorem outlasts_toOperation
    {α : Type} {setting : Setting} {args : List Val} {body : Exec α} {s : Session}
    (h : Ends body (Telling.start s args).run (fun _ r => s.Outlasts r.session)
      fun _ r => s.Outlasts r.session) :
    Ends (toOperation setting args body) s (fun _ s' => s.Outlasts s')
      fun _ s' => s.Outlasts s' := by
  unfold Ends at h ⊢
  unfold toOperation
  simp only [Telling.start] at h
  cases hrun : body { session := s, stack := Stack.pushAll [] args } with
  | ok a r =>
    rw [hrun] at h
    exact h
  | error abort r =>
    rw [hrun] at h
    cases abort with
    | bug | exhausted => exact h
    | trap cause =>
      by_cases hlogging : setting.config.logging
      · simp only [if_pos hlogging]
        exact h.trans (.of_contexts rfl)
      · simp only [if_neg hlogging]
        exact h

theorem calm_collect (function : UInt32) : Calm (fun _ => True) (collect function) :=
  .of_shared fun s => shared_collect (sharing_refilled (s := s) rfl rfl rfl) trivial

/-- Within the bound, host programs, commands and invocations leave done contexts
done. -/
structure Remembering (fuel : Nat) : Prop where
  host : ∀ context program, Remembers (runHost fuel context program)
  perform : ∀ inherited command, Remembers (perform fuel inherited command)
  invoke : ∀ context function args, Remembers (invoke fuel context function args)

variable {fuel : Nat}

theorem outlasts_call
    {setting : Setting}
    (hhosts : ∀ n < fuel, ∀ program, Remembers (runHost n setting.context program))
    (function : UInt32) (t : Telling) :
    Ends (call fuel setting function) t.run (fun _ r =>
      t.run.session.Outlasts r.session) fun _ r =>
      t.run.session.Outlasts r.session := by
  have hjourney := (travels hhosts).call 0 function t
  have hfollows := (tells fuel).call setting 0 function t
  cases htold : tellCall fuel setting 0 function t with
  | ok a t' =>
    rw [htold] at hfollows
    exact Ends.of_eq_ok hfollows.symm (hjourney.onOk htold).2.2.outlasts
  | error cause t' =>
    rw [htold] at hfollows
    obtain ⟨-, place, hmoves, hhalt⟩ := hjourney.onError htold
    exact Ends.of_eq_error hfollows.symm (hmoves.outlasts.trans hhalt.outlasts)

theorem remembers_invoke
    (hhosts : ∀ n < fuel, Remembering n) (context : ContextRef) (function : UInt32)
    (args : List Val) :
    Remembers (invoke (fuel + 1) context function args) := by
  rw [invoke_succ]
  refine (remembers_accept function args).bind fun config => ?_
  intro s
  have hcall := @outlasts_call fuel { config, context }
    (fun n hn => (hhosts n hn).host context) function (.start s args)
  refine outlasts_toOperation (hcall.bind fun _ r h => ?_)
  refine (calm_collect function r).mono (fun _ r' h' => ?_) fun _ r' h' => ?_
  · exact h.trans (.of_contexts h'.2.contexts)
  · exact h.trans (.of_contexts h'.2.contexts)

theorem outlasts_conclude
    {s : Session} {purpose : Purpose} {x : Operation (List Val)}
    (h : Ends x s (fun _ s' => s.Outlasts s') fun _ s' => s.Outlasts s') :
    Ends (fun s => conclude purpose (x s)) s (fun _ s' => s.Outlasts s')
      fun _ s' => s.Outlasts s' := by
  cases hx : x s with
  | ok values s' =>
    have hend : s.Outlasts s' := h.onOk hx
    cases purpose with
    | results => exact Ends.of_eq_ok (congrArg (conclude .results) hx) hend
    | start name position inst =>
      exact Ends.of_eq_ok (congrArg (conclude (.start name position inst)) hx) hend
  | error error s' =>
    have hend : s.Outlasts s' := h.onError hx
    cases purpose with
    | results => exact Ends.of_eq_error (congrArg (conclude .results) hx) hend
    | start name position inst =>
      cases error <;>
        exact Ends.of_eq_error (congrArg (conclude (.start name position inst)) hx) hend

theorem remembers_perform
    (ih : Remembering fuel) (inherited : ContextRef) (command : Command) :
    Remembers (perform (fuel + 1) inherited command) := by
  rw [perform_succ]
  refine (remembers_request inherited command).bind fun request => ?_
  cases request with
  | answer response => exact .pure _
  | invoke context function args purpose =>
      exact fun s => outlasts_conclude (ih.invoke context function args s)

theorem remembers_host
    (ih : Remembering fuel) (context : ContextRef) (program : HostProgram) :
    Remembers (runHost (fuel + 1) context program) := by
  cases program with
  | done | fail | stop => exact .pure _
  | perform command next =>
    intro s
    refine ends_runHost_perform (ih.perform context command s)
      (fun response s' h => ?_) (fun error s' h => ?_)
      (fun _ h => h) fun _ h => h
    · exact (ih.host context (next response) s').mono (fun _ _ => h.trans)
        fun _ _ => h.trans
    · exact (ih.host context (next (.failed error)) s').mono (fun _ _ => h.trans)
        fun _ _ => h.trans

/-- Done contexts stay done, whatever is carried out. -/
theorem remembering (fuel : Nat) : Remembering fuel := by
  -- An invocation runs host programs with any smaller bound.
  induction fuel using Nat.strongRecOn with
  | _ fuel ih =>
    cases fuel with
    | zero => exact ⟨fun _ _ => .throw _, fun _ _ => .throw _, fun _ _ _ => .throw _⟩
    | succ fuel =>
      have hlast := ih fuel (Nat.lt_succ_self fuel)
      exact {
        host := remembers_host hlast
        perform := remembers_perform hlast
        invoke := remembers_invoke fun n hn => ih n (Nat.lt_succ_of_lt hn) }

end Engine
end WebAssembly
