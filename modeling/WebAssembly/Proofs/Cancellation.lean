import WebAssembly.Proofs.Backtraces
import WebAssembly.Proofs.Halting

/-!
# Cancellation

A context may become done at any time in a run, while a host function is being called.
Then no call and no loop begins any more, and what is left of the bodies that are active
is executed at most once.  The invocation ends, whatever it was doing.
-/

namespace WebAssembly

/-! ## The order of what is left -/

namespace Incident

/-- The body of a function or of a loop is begun. -/
def Begins : Incident → Prop
  | .entered _ | .restarted => True
  | _ => False

/-- A function is about to be entered, or a loop to be restarted. -/
def Attempts : Incident → Prop
  | .calling | .looping => True
  | _ => False

def Dispatches : Incident → Prop
  | .dispatched _ => True
  | _ => False

theorem Attempts.not_begins
    {incident : Incident} (h : incident.Attempts) : ¬incident.Begins := by
  cases incident with
  | calling | looping => exact id
  | entered | answered | left | dispatched | restarted => exact h.elim

theorem Attempts.not_dispatches
    {incident : Incident} (h : incident.Attempts) : ¬incident.Dispatches := by
  cases incident with
  | calling | looping => exact id
  | entered | answered | left | dispatched | restarted => exact h.elim

end Incident

/-- The depth of the innermost call and the position in its body. -/
def Scene.place (scene : Scene) : Nat × Nat :=
  (scene.run.active.size, scene.position)

/-- Deeper calls come first, and in each of them the text goes on. -/
def Before (place place' : Nat × Nat) : Prop :=
  place'.1 < place.1 ∨ place.1 = place'.1 ∧ place.2 < place'.2

theorem Before.ne
    {place place' : Nat × Nat} (h : Before place place') : place' ≠ place := by
  rintro rfl
  rw [Before] at h
  omega

/-- Since the context has been done, nothing was begun, and instructions were dispatched
in their order. -/
structure Telling.Orderly (setting : Setting) (position : Nat)
    (t : Telling) : Prop where
  settled : ∀ scene ∈ t.scenes, setting.Over scene.run.session →
    ¬scene.incident.Begins ∧ ¬scene.incident.Attempts
  ordered : t.scenes.Pairwise fun newer older =>
    setting.Over older.run.session → newer.incident.Dispatches →
      older.incident.Dispatches →
      Before older.place newer.place
  behind : ∀ scene ∈ t.scenes, setting.Over scene.run.session →
    scene.incident.Dispatches →
    Before scene.place (t.run.active.size, position)

namespace Telling.Orderly

variable {setting : Setting} {position : Nat} {t : Telling}

/-- There is nothing to say as long as the context is not done. -/
theorem of_live
    (hlasting : t.Lasting) (hlive : ¬setting.Over t.run.session) :
    t.Orderly setting position where
  settled := fun scene hscene hover =>
    absurd hover (hlasting.not_over hlive scene hscene)
  ordered := hlasting.scenes.imp_of_mem fun _ hold _ hover =>
    absurd hover (hlasting.not_over hlive _ hold)
  behind := fun scene hscene hover =>
    absurd hover (hlasting.not_over hlive scene hscene)

theorem start (s : Session) (args : List Val) :
    (Telling.start s args).Orderly setting 0 :=
  ⟨fun _ hscene => absurd hscene List.not_mem_nil, .nil,
    fun _ hscene => absurd hscene List.not_mem_nil⟩

theorem goOn
    {position' : Nat} {r : Run} (h : t.Orderly setting position)
    (hbefore : ∀ place, Before place (t.run.active.size, position) →
      Before place (r.active.size, position')) :
    (t.goOn r).Orderly setting position' :=
  ⟨h.settled, h.ordered, fun scene hscene hover hdispatches =>
    hbefore _ (h.behind scene hscene hover hdispatches)⟩

/-- Some incidents are no dispatch and begin nothing. -/
theorem tell
    {incident : Incident} (h : t.Orderly setting position) (outside : Nat)
    (hbegins : ¬incident.Begins) (hattempts : ¬incident.Attempts)
    (hdispatches : ¬incident.Dispatches) :
    (t.tell outside incident).Orderly setting position where
  settled := List.forall_mem_cons.mpr ⟨fun _ => ⟨hbegins, hattempts⟩, h.settled⟩
  ordered := h.ordered.cons fun _ _ _ hnew => absurd hnew hdispatches
  behind := List.forall_mem_cons.mpr ⟨fun _ hnew => absurd hnew hdispatches, h.behind⟩

theorem dispatch
    (h : t.Orderly setting position) (instr : Instr) :
    (t.tell position (.dispatched instr)).Orderly setting (position + 1) := by
  have hbefore (place : Nat × Nat) (h : Before place (t.run.active.size, position)) :
      Before place (t.run.active.size, position + 1) := by
    rw [Before] at h ⊢
    omega
  refine ⟨List.forall_mem_cons.mpr ⟨fun _ => ⟨id, id⟩, h.settled⟩, ?_,
    List.forall_mem_cons.mpr ⟨fun _ _ => ?_, ?_⟩⟩
  · exact h.ordered.cons fun scene hscene hover _ hold =>
      h.behind scene hscene hover hold
  · exact .inr ⟨rfl, Nat.lt_succ_self position⟩
  · exact fun scene hscene hover hold => hbefore _ (h.behind scene hscene hover hold)

end Telling.Orderly

/-- What is dispatched stands at its position in the body of the innermost call. -/
def Located : List Scene → Prop :=
  Throughout fun scene older => ∀ instr, scene.incident = .dispatched instr →
    ∃ f outer, pending older = f :: outer ∧
      (Instr.occurrencesIn f.body)[scene.position]? = some instr

/-- Nothing has to be known of an incident that is no dispatch. -/
theorem Located.tell
    {t : Telling} {position : Nat} {incident : Incident} (h : Located t.scenes)
    (hincident : ¬incident.Dispatches) :
    Located (t.tell position incident).scenes := by
  refine Throughout.cons h fun instr hinstr => ?_
  obtain rfl : incident = .dispatched instr := hinstr
  exact absurd trivial hincident

section

variable {setting : Setting} {place place' : Nat × Telling} {cause : Abort}
  {t : Telling}

theorem Move.located
    {Hosts : Session → Session → Prop} (h : Move setting Hosts place place')
    (hlocated : Located place.2.scenes) :
    Located place'.2.scenes := by
  cases h with
  | calm | advance => exact hlocated
  | @dispatch position t f outer instr inside occurs =>
    refine Throughout.cons hlocated fun instr' hinstr => ?_
    obtain rfl := Incident.dispatched.inj hinstr
    exact ⟨f, outer, inside, occurs⟩
  | @enter position t f r =>
      exact Located.tell (t := (t.tell position .calling).goOn r) (hlocated.tell id) id
  | @restart position t r start =>
      exact Located.tell (t := (t.tell start .looping).goOn r) (hlocated.tell id) id
  | @answer position t r | @leave position t _ _ r =>
      exact Located.tell (t := t.goOn r) hlocated id

theorem Move.orderly
    (h : Move setting Session.Outlasts place place') (hlasting : place.2.Lasting)
    (hsound : place.2.Sound setting.config.ceiling)
    (horderly : place.2.Orderly setting place.1) :
    place'.2.Orderly setting place'.1 := by
  have hlasting' := h.lasting hlasting
  cases h with
  | calm kin => exact horderly.goOn fun place hplace => kin.active ▸ hplace
  | @advance position t count =>
    refine horderly.goOn (r := t.run)
      fun place (hplace : Before place (t.run.active.size, position)) => ?_
    rw [Before] at hplace ⊢
    omega
  | dispatch => exact horderly.dispatch _
  | enter room live active session =>
    exact .of_live hlasting' fun hover =>
      Setting.not_over_of_live live (hover.of_contexts (by rw [← session]; rfl))
  | restart start live kin =>
    exact .of_live hlasting' fun hover =>
      Setting.not_over_of_live live (hover.of_contexts kin.contexts.symm)
  | answer outside active host =>
    exact (horderly.goOn fun place hplace => active ▸ hplace).tell outside id id id
  | @leave position t f outer r outside inside active session =>
    -- The call that ends is the innermost one, so that everything before was done at
    -- its depth or deeper.
    have hsize : t.run.active.size = outer.length + 1 :=
      hsound.now.size_eq.trans (congrArg List.length inside)
    have hpop : r.active.size = t.run.active.size - 1 := by rw [active, Array.size_pop]
    have hleft : (t.goOn r).Orderly setting outside := by
      refine horderly.goOn fun place (hplace : Before place (t.run.active.size,
        position)) => ?_
      rw [Before] at hplace ⊢
      omega
    exact hleft.tell outside id id id

/-- What is known wherever moves have led to. -/
structure Telling.Regular (setting : Setting) (position : Nat)
    (t : Telling) : Prop where
  lasting : t.Lasting
  sound : t.Sound setting.config.ceiling
  located : Located t.scenes
  orderly : t.Orderly setting position

theorem Moves.regular
    (h : Moves setting Session.Outlasts place place')
    (hregular : place.2.Regular setting place.1) :
    place'.2.Regular setting place'.1 := by
  induction h with
  | refl => exact hregular
  | tail _ hmove ih =>
    exact {
      lasting := hmove.lasting ih.lasting
      sound := hmove.sound ih.sound
      located := hmove.located ih.located
      orderly := hmove.orderly ih.lasting ih.sound ih.orderly }

/-- An attempt under a context that is done is the last thing that happens, and it is
refused. -/
def Refused (setting : Setting) (cause : Abort) (scenes : List Scene) : Prop :=
  ∀ later scene earlier reason, scenes = later ++ scene :: earlier →
    setting.interruption scene.run.session = some reason → scene.incident.Attempts →
      later = [] ∧ (cause = .trap (.contextDone reason) ∨
        cause = .trap .callStackOverflow ∧ scene.incident = .calling ∧
        setting.config.ceiling ≤ scene.run.active.size)

/-- What is known of all that has happened once an invocation is over. -/
structure Concluded (setting : Setting) (scenes : List Scene) : Prop where
  lasting : scenes.Pairwise fun newer older =>
    older.run.session.Outlasts newer.run.session
  faithful : Faithful setting.config.ceiling scenes
  located : Located scenes
  unbegun : ∀ scene ∈ scenes, setting.Over scene.run.session → ¬scene.incident.Begins
  ordered : scenes.Pairwise fun newer older =>
    setting.Over older.run.session → newer.incident.Dispatches →
      older.incident.Dispatches →
      Before older.place newer.place

theorem Telling.Regular.concluded
    {position : Nat} (h : t.Regular setting position) : Concluded setting t.scenes where
  lasting := h.lasting.scenes
  faithful := h.sound.scenes
  located := h.located
  unbegun := fun scene hscene hover => (h.orderly.settled scene hscene hover).1
  ordered := h.orderly.ordered

/-- A refused attempt adds nothing but itself. -/
theorem Telling.Regular.concluded_attempt
    {position : Nat} (h : t.Regular setting position) (outside : Nat)
    {incident : Incident} (hattempt : incident.Attempts)
    (hpending : pending (t.tell outside incident).scenes = pending t.scenes) :
    Concluded setting (t.tell outside incident).scenes := by
  have hrest := h.concluded
  exact {
    lasting := (h.lasting.tell outside incident).scenes
    faithful := (h.sound.tell outside hpending).scenes
    located := h.located.tell hattempt.not_dispatches
    unbegun := List.forall_mem_cons.mpr ⟨fun _ => hattempt.not_begins, hrest.unbegun⟩
    ordered := hrest.ordered.cons fun _ _ _ hnew =>
      absurd hnew hattempt.not_dispatches }

theorem Halt.concluded
    (h : Halt setting Session.Outlasts place cause t)
    (hregular : place.2.Regular setting place.1) :
    Concluded setting t.scenes := by
  cases h with
  | calm | exhausted | host => exact hregular.concluded
  | overflow | refuse | stop => exact hregular.concluded_attempt _ trivial rfl

theorem Telling.Regular.refused
    {position : Nat} (h : t.Regular setting position) (cause : Abort) :
    Refused setting cause t.scenes := by
  intro later scene earlier reason hscenes hdone hattempts
  have hscene : scene ∈ t.scenes :=
    hscenes ▸ List.mem_append_right later List.mem_cons_self
  exact absurd hattempts (h.orderly.settled scene hscene ⟨reason, hdone⟩).2

theorem Telling.Regular.refused_attempt
    {position outside : Nat} {incident : Incident} (h : t.Regular setting position)
    (hcause : ∀ reason, setting.interruption t.run.session = some reason →
      cause = .trap (.contextDone reason) ∨
        cause = .trap .callStackOverflow ∧ incident = .calling ∧
        setting.config.ceiling ≤ t.run.active.size) :
    Refused setting cause (t.tell outside incident).scenes := by
  intro later scene earlier reason hscenes hdone hattempts
  cases later with
  | nil =>
    obtain ⟨rfl, -⟩ := List.cons.inj hscenes
    exact ⟨rfl, hcause reason hdone⟩
  | cons newest later =>
    have hscene : scene ∈ t.scenes :=
      (List.cons.inj hscenes).2 ▸ List.mem_append_right later List.mem_cons_self
    exact absurd hattempts (h.orderly.settled scene hscene ⟨reason, hdone⟩).2

theorem Halt.refused_attempt
    (h : Halt setting Session.Outlasts place cause t)
    (hregular : place.2.Regular setting place.1) :
    Refused setting cause t.scenes := by
  cases h with
  | calm | exhausted | host => exact hregular.refused _
  | overflow full => exact hregular.refused_attempt fun _ _ => .inr ⟨rfl, rfl, full⟩
  | refuse _ done | stop _ done =>
    refine hregular.refused_attempt fun reason hdone => .inl ?_
    rw [Option.some.inj (done.symm.trans hdone)]

/-- What is dispatched stands in the body of one of the given calls, which is found by
its depth. -/
def Scene.Within (scene : Scene) (calls : List FuncInst) : Prop :=
  ∀ instr, scene.incident = .dispatched instr → ∃ f outer, f :: outer <:+ calls ∧
    scene.run.active.size = outer.length + 1 ∧
    (Instr.occurrencesIn f.body)[scene.position]? = some instr

/-- As long as nothing is begun, the calls in progress are those that were in progress
before. -/
theorem pending_suffix
    {later earlier : List Scene} (h : ∀ scene ∈ later, ¬scene.incident.Begins) :
    pending (later ++ earlier) <:+ pending earlier := by
  induction later with
  | nil => exact List.suffix_rfl
  | cons scene later ih =>
    obtain ⟨hscene, hlater⟩ := List.forall_mem_cons.mp h
    have hrest := ih hlater
    obtain ⟨incident, position, run⟩ := scene
    cases incident with
    | entered | restarted => exact absurd trivial hscene
    | left => exact (List.tail_suffix _).trans hrest
    | calling | answered | dispatched | looping => exact hrest

namespace Concluded

variable {later earlier : List Scene} {scene : Scene} {reason : DoneReason}

/-- An instruction stands in the body of a call that was in progress before. -/
theorem within
    {scenes : List Scene} (h : Concluded setting scenes) (between : List Scene)
    (hscenes : scene :: (between ++ earlier) <:+ scenes)
    (hbegins : ∀ scene ∈ between, ¬scene.incident.Begins) :
    scene.Within (pending earlier) := by
  intro instr hinstr
  obtain ⟨f, outer, hpending, hoccurs⟩ := h.located _ _ hscenes instr hinstr
  refine ⟨f, outer, hpending ▸ pending_suffix hbegins, ?_, hoccurs⟩
  have hsize := (h.faithful _ _ hscenes).size_eq
  simp only [pending, hinstr, hpending] at hsize
  exact hsize

variable (h : Concluded setting (later ++ scene :: earlier))
  (hdone : setting.interruption scene.run.session = some reason)
include h hdone

theorem done_later :
    ∀ newer ∈ later, setting.interruption newer.run.session = some reason := by
  intro newer hnewer
  have hpairs := (List.pairwise_append.mp h.lasting).2.2
  exact Setting.interruption_outlasts hdone
    (hpairs newer hnewer scene List.mem_cons_self)

theorem unbegun_later : ∀ newer ∈ later, ¬newer.incident.Begins := by
  intro newer hnewer
  exact h.unbegun newer (List.mem_append_left _ hnewer) ⟨reason,
    h.done_later hdone newer hnewer⟩

theorem within_later :
    ∀ newer ∈ later ++ [scene], newer.Within (pending (scene :: earlier)) := by
  intro newer hnewer
  have hbegins := h.unbegun_later hdone
  obtain hnewer | hsame := List.mem_append.mp hnewer
  · obtain ⟨newest, between, rfl⟩ := List.append_of_mem hnewer
    refine h.within between ⟨newest, ?_⟩ fun scene hscene => hbegins scene ?_
    · rw [List.append_assoc, List.cons_append]
    · exact List.mem_append_right newest (List.mem_cons_of_mem newer hscene)
  · obtain rfl := List.mem_singleton.mp hsame
    intro instr hinstr
    have hnow : newer.Within (pending earlier) :=
      h.within [] (List.suffix_append later (newer :: earlier)) fun _ hnone =>
        absurd hnone List.not_mem_nil
    have hpending : pending (newer :: earlier) = pending earlier := by
      simp only [pending, hinstr]
    rw [hpending]
    exact hnow instr hinstr

/-- No instruction of a call is dispatched twice. -/
theorem once_later : (later ++ [scene]).Pairwise fun newer older =>
    newer.incident.Dispatches → older.incident.Dispatches →
      newer.place ≠ older.place := by
  have hsplit : later ++ scene :: earlier = (later ++ [scene]) ++ earlier := by simp
  have hordered := h.ordered
  rw [hsplit] at hordered
  refine (List.pairwise_append.mp hordered).1.imp_of_mem
    fun hnew hold hbefore hnewer holder => ?_
  obtain hold | hsame := List.mem_append.mp hold
  · exact (hbefore ⟨reason, h.done_later hdone _ hold⟩ hnewer holder).ne
  · obtain rfl := List.mem_singleton.mp hsame
    exact (hbefore ⟨reason, hdone⟩ hnewer holder).ne

end Concluded
end

/-! ## Invocations -/

theorem Operation.exists_function_of_accept
    {function : UInt32} {args : List Val} {s s' : Session} {config : EngineConfig}
    (h : accept function args s = .ok config s') :
    ∃ f, s.store.functions[function.toNat]? = some f := by
  have hends : Ends (accept function args) s (fun _ _ =>
      ∃ f, s.store.functions[function.toNat]? = some f)
      fun _ _ => True := by
    refine Ends.get_bind (Ends.bind (P := fun _ t => s = t) ?_ ?_)
    · cases s.store.engine with
      | none => trivial
      | some => rfl
    · rintro config _ rfl
      refine Ends.bind (P := fun _ _ =>
        ∃ f, s.store.functions[function.toNat]? = some f) ?_ fun f t hfound => ?_
      · exact ends_read (fun f hf => ⟨f, Store.lookup_eq_ok_iff.mp hf⟩)
          fun _ _ => trivial
      · unfold Ends
        split
        · exact hfound
        · trivial
  exact hends.onOk h

/-- A session with an open context, in which a host function cancels it and another
function has the given body. -/
def Session.canceler (body : List Instr) : Session where
  store := {
    engine := some { closeOnContextDone := true }
    functions := #[
      { kind := .host
        type := some {}
        name := "cancel"
        host := some fun _ => .perform .cancel fun _ => .done [] },
      { kind := .wasm
        type := some {}
        name := "work"
        body }]
    modules := #[
      { name := "unit", addr := 0, types := [], functions := [0, 1], tables := [],
        memories := [], globals := []
        exports := [] }] }
  contexts := #[none]
  latest := some 0

namespace Engine

open Exec Told

/-- Whatever becomes of a call, all that has happened is in order. -/
theorem concluded_call (fuel : Nat) (setting : Setting) (function : UInt32)
    (args : List Val) (s : Session) :
    Ends (tellCall fuel setting 0 function) (.start s args)
      (fun _ t => Concluded setting t.scenes ∧ ∀ cause, Refused setting cause t.scenes)
        fun cause t =>
        Concluded setting t.scenes ∧ Refused setting cause t.scenes := by
  have hstart : (Telling.start s args).Regular setting 0 := {
    lasting := .start s args
    sound := .start setting.config.ceiling s args
    located := Throughout.nil
    orderly := .start s args }
  have hjourney := (travels_outlasting setting fuel).call 0 function (.start s args)
  refine Ends.mono hjourney (fun _ t h => ?_) fun cause t h => ?_
  · have hregular := h.2.2.regular hstart
    exact ⟨hregular.concluded, hregular.refused⟩
  · obtain ⟨-, place, hmoves, hhalt⟩ := h
    have hregular := hmoves.regular hstart
    exact ⟨hhalt.concluded hregular, hhalt.refused_attempt hregular⟩

theorem concluded_chronicle (fuel : Nat) (setting : Setting) (function : UInt32)
    (args : List Val) (s : Session) :
    Concluded setting (chronicle fuel setting function args s) := by
  have hends := concluded_call fuel setting function args s
  unfold chronicle
  cases htold : tellCall fuel setting 0 function (.start s args) with
  | ok _ t => exact (hends.onOk htold).1
  | error _ t => exact (hends.onError htold).1

section

variable {context : ContextRef} {function : UInt32} {args : List Val} {s : Session}
  {config : EngineConfig} {fuel : Nat}

/-- If the context is done at some time, then some bound is enough for the call. -/
theorem exists_bound
    {setting : Setting} {scene : Scene}
    (hscene : scene ∈ chronicle fuel setting function args s)
    (hover : setting.Over scene.run.session) :
    ∃ bound, ∀ t, tellCall bound setting 0 function (.start s args) ≠
      .error .exhausted t := by
  by_cases hexhausted : ∃ t, tellCall fuel setting 0 function (.start s args) =
    .error .exhausted t
  · obtain ⟨t, hexhausted⟩ := hexhausted
    have hscenes : scene ∈ t.scenes := by
      rw [chronicle, hexhausted] at hscene
      exact hscene
    obtain ⟨bound, hends⟩ :=
      (yields setting fuel).call 0 function (.start s args) (.start s args) t hexhausted
        ⟨scene, hscenes, hover⟩
    exact ⟨bound, Subsides.ne_exhausted hends⟩
  · exact ⟨fuel, fun t ht => hexhausted ⟨t, ht⟩⟩

variable (haccept : Operation.accept function args s = .ok config s)
include haccept

theorem not_isExhausted_invoke
    (h : ∀ t, tellCall fuel { config, context } 0 function (.start s args) ≠
      .error .exhausted t) :
    ¬SessionResult.IsExhausted (invoke (fuel + 1) context function args s) := by
  rintro ⟨u, hinvoke⟩
  obtain ⟨cause, t, htold, hreport⟩ := exists_told_of_error haccept hinvoke
      fun _ => Error.noConfusion
  cases cause with
  | trap | bug => cases hreport
  | exhausted => exact h t htold

omit haccept in
/-- If the context is done from the start, then the function is not entered. -/
theorem tellCall_of_done
    {setting : Setting} {reason : DoneReason} {f : FuncInst} (fuel : Nat)
    (args : List Val) (hf : s.store.functions[function.toNat]? = some f)
    (hdone : setting.interruption s = some reason) :
    ∃ cause, (cause = .contextDone reason ∨ cause = .callStackOverflow ∧
      setting.config.ceiling ≤ 0) ∧
      tellCall (fuel + 1) setting 0 function (.start s args) =
        .error (.trap cause) ((Telling.start s args).tell 0 .calling) := by
  have hfound : silent (funcInst function) (.start s args) = .ok f (.start s args) :=
    silent_of_ok (funcInst_of_some hf)
  have hrefused
      {cause : TrapCause}
      (h : enter setting f.name (Telling.start s args).run = .error (.trap cause)
        (Telling.start s args).run) :
      tellCall (fuel + 1) setting 0 function (.start s args) =
        .error (.trap cause) ((Telling.start s args).tell 0 .calling) := by
    rw [tellCall_succ]
    exact bind_eq_of_eq_error ((bind_eq_of_eq_ok hfound).trans (attempt_of_error h))
  obtain ⟨hfull, herror⟩ | ⟨-, reason', hdone', herror⟩ | ⟨-, hlive, -⟩ :=
    enter_cases setting f.name (Telling.start s args).run
  · exact ⟨_, .inr ⟨rfl, hfull⟩, hrefused herror⟩
  · obtain rfl := Option.some.inj (hdone'.symm.trans hdone)
    exact ⟨_, .inl rfl, hrefused herror⟩
  · cases hlive.symm.trans hdone

/-- An attempt under a context that is done ends the invocation. -/
theorem invoke_of_attempt
    {later earlier : List Scene} {scene : Scene} {reason : DoneReason}
    (hscenes : chronicle fuel { config, context } function args s = later ++
      scene :: earlier)
    (hdone : Setting.interruption { config, context } scene.run.session = some reason)
    (hattempts : scene.incident.Attempts) :
    later = [] ∧ ∃ cause names t,
      invoke (fuel + 1) context function args s = .error (.trap cause names) t ∧
      (cause = .contextDone reason ∨
        cause = .callStackOverflow ∧ scene.incident = .calling ∧
        config.ceiling ≤ scene.run.active.size) := by
  have hends := concluded_call fuel { config, context } function args s
  unfold chronicle at hscenes
  cases htold : tellCall fuel { config, context } 0 function (.start s args) with
  | ok a t =>
    rw [htold] at hscenes
    -- A call that comes back has no such attempt behind it; otherwise every cause would
    -- be one of these two.
    obtain ⟨-, h | ⟨h, -⟩⟩ := (hends.onOk htold).2 .exhausted later scene earlier reason
        hscenes hdone hattempts
    · cases h
    · cases h
  | error cause t =>
    rw [htold] at hscenes
    obtain ⟨u, -, herror⟩ := invoke_of_error haccept htold
    obtain ⟨hlast, rfl | ⟨rfl, hcalling, hfull⟩⟩ :=
      (hends.onError htold).2 later scene earlier reason hscenes hdone hattempts
    · exact ⟨hlast, _, _, u, herror, .inl rfl⟩
    · exact ⟨hlast, _, _, u, herror, .inr ⟨rfl, hcalling, hfull⟩⟩

/-- A context that is done ends an invocation only where something is attempted. -/
theorem exists_attempt
    {reason : DoneReason} {names : List String} {u : Session}
    (hinvoke : invoke (fuel + 1) context function args s =
      .error (.trap (.contextDone reason) names) u) :
    ∃ newest older, chronicle fuel { config, context } function args s =
        newest :: older ∧
      newest.incident.Attempts := by
  obtain ⟨t, htold, -⟩ := exists_told_of_trap haccept hinvoke
  obtain ⟨-, place, -, hhalt⟩ :=
    (journey_invocation fuel { config, context } function args s).onError htold
  rw [chronicle, htold]
  obtain ⟨newest, older, hscenes, hincident⟩ | ⟨newest, older, hscenes, hincident⟩ :=
    hhalt.refused
  · exact ⟨newest, older, hscenes, hincident ▸ trivial⟩
  · exact ⟨newest, older, hscenes, hincident ▸ trivial⟩

end

/-- Suppose that runs heed their context.  Once it is done, no function is entered and
no loop restarted; of the calls in progress then, every instruction is dispatched at
most once more, and the first attempt to call a function or to restart a loop is refused
and ends the invocation.  So the invocation ends, whatever its budget is.  If the
context is done from the start, no instruction is dispatched and the store stays as it
is. -/
theorem done_context_ends_invocation
    (context : ContextRef) (function : UInt32) (args : List Val) (s : Session)
    (config : EngineConfig) (haccept : Operation.accept function args s = .ok config s)
    (hcloses : config.closeOnContextDone = true) :
    (∀ fuel later scene earlier reason,
      chronicle fuel { config, context } function args s = later ++ scene :: earlier →
      scene.run.session.doneReason context = some reason →
        (∀ newer ∈ later, newer.run.session.doneReason context = some reason ∧
          ¬newer.incident.Begins) ∧
        (∀ newer ∈ later ++ [scene], newer.Within (pending (scene :: earlier))) ∧
        ((later ++ [scene]).Pairwise fun newer older =>
          newer.incident.Dispatches → older.incident.Dispatches →
          newer.place ≠ older.place) ∧
        (scene.incident.Attempts →
          later = [] ∧ ∃ cause names t,
            invoke (fuel + 1) context function args s = .error (.trap cause names) t ∧
            (cause = .contextDone reason ∨
              cause = .callStackOverflow ∧ scene.incident = .calling ∧
              config.ceiling ≤ scene.run.active.size))) ∧
    (∀ fuel reason names t, invoke (fuel + 1) context function args s =
        .error (.trap (.contextDone reason) names) t →
      ∃ newest older, chronicle fuel { config, context } function args s =
          newest :: older ∧
        newest.incident.Attempts) ∧
    (∀ fuel, ∀ scene ∈ chronicle fuel { config, context } function args s, ∀ reason,
      scene.run.session.doneReason context = some reason →
        ∃ bound result, ¬SessionResult.IsExhausted result ∧
          ∀ larger ≥ bound, invoke larger context function args s = result) ∧
    ∀ reason, s.doneReason context = some reason → ∀ fuel,
      (∀ scene ∈ chronicle fuel { config, context } function args s,
        ¬scene.incident.Begins ∧ ¬scene.incident.Dispatches) ∧
      ∃ cause t, invoke (fuel + 2) context function args s = .error (.trap cause []) t ∧
        t.store = s.store ∧
        (cause = .contextDone reason ∨ cause = .callStackOverflow ∧
          config.ceiling ≤ 0) := by
  have hheeds (u : Session) : Setting.interruption { config, context } u =
      u.doneReason context :=
    Setting.interruption_of_done hcloses u
  refine ⟨fun fuel later scene earlier reason hscenes hdone => ?_,
    fun _ _ _ _ => exists_attempt haccept,
    fun fuel scene hscene reason hdone => ?_, fun reason hdone fuel => ?_⟩
  · rw [← hheeds] at hdone
    have hconcluded := concluded_chronicle fuel { config, context } function args s
    rw [hscenes] at hconcluded
    refine ⟨fun newer hnewer => ⟨?_, hconcluded.unbegun_later hdone newer hnewer⟩,
      hconcluded.within_later hdone, hconcluded.once_later hdone,
      invoke_of_attempt haccept hscenes hdone⟩
    rw [← hheeds]
    exact hconcluded.done_later hdone newer hnewer
  · rw [← hheeds] at hdone
    obtain ⟨bound, hbound⟩ := exists_bound hscene ⟨reason, hdone⟩
    have hends : ¬SessionResult.IsExhausted
        (invoke (bound + 1) context function args s) :=
      not_isExhausted_invoke haccept hbound
    refine ⟨bound + 1, _, hends, fun larger hle => ?_⟩
    have hpersists := Reference.persists_invoke context function args s hle
    rw [← (agrees _).invoke, ← (agrees _).invoke] at hpersists
    exact hpersists.resolve_left hends
  · rw [← hheeds] at hdone
    obtain ⟨f, hf⟩ := Operation.exists_function_of_accept haccept
    constructor
    · cases fuel with
      | zero => exact fun _ hscene => absurd hscene List.not_mem_nil
      | succ fuel =>
        obtain ⟨cause, -, htold⟩ := tellCall_of_done fuel args hf hdone
        rw [chronicle, htold]
        exact List.forall_mem_singleton.mpr ⟨id, id⟩
    · obtain ⟨cause, hcause, htold⟩ := tellCall_of_done fuel args hf hdone
      obtain ⟨u, hstore, herror⟩ := invoke_of_error haccept htold
      exact ⟨cause, u, herror, hstore, hcause⟩

/-- A loop that cancels its own context is not restarted. -/
theorem canceled_loop_ends :
    let s := Session.canceler [.loop none [.call 0, .br 0]]
    ∃ config t bound result, Operation.accept 1 [] s = .ok config s ∧
      config.closeOnContextDone = true ∧
      (∃ scene ∈ chronicle 19 { config, context := .opened 0 } 1 [] s,
        scene.run.session.doneReason (.opened 0) = some .canceled) ∧
      invoke 20 (.opened 0) 1 [] s =
        .error (.trap (.contextDone .canceled) ["work"]) t ∧
      ¬SessionResult.IsExhausted result ∧ ∀ larger ≥ bound,
        invoke larger (.opened 0) 1 [] s = result := by
  intro s
  have haccept : Operation.accept 1 [] s = .ok { closeOnContextDone := true } s := rfl
  have hruns : (match invoke 20 (.opened 0) 1 [] s with
      | .error (.trap (.contextDone .canceled) names) _ => names == ["work"]
      | _ => false) = true := by decide +kernel
  have hdone : (chronicle 19 { config := { closeOnContextDone := true },
                               context := .opened 0 } 1 [] s).any
      (fun scene => scene.run.session.doneReason (.opened 0) == some .canceled) =
        true := by decide +kernel
  obtain ⟨-, -, hends, -⟩ :=
    done_context_ends_invocation (.opened 0) 1 [] s _ haccept rfl
  clear_value s
  obtain ⟨scene, hscene, hcanceled⟩ := List.any_eq_true.mp hdone
  have hreason := eq_of_beq hcanceled
  obtain ⟨bound, result, hresult, hall⟩ := hends 19 scene hscene .canceled hreason
  split at hruns
  · rename_i names t hinvoke
    obtain rfl : names = ["work"] := eq_of_beq hruns
    exact ⟨_, t, bound, result, haccept, rfl, ⟨scene, hscene, hreason⟩, hinvoke,
      hresult, hall⟩
  · cases hruns

end Engine
end WebAssembly
