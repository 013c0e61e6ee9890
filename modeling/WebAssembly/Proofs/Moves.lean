import Mathlib.Logic.Relation
import WebAssembly.Proofs.Chronicle
import WebAssembly.Proofs.Coupling

/-!
# Moves

A telling goes on by moves of a few kinds.  Most of them are silent and leave the active
functions and the contexts as they are; the others dispatch an instruction, enter or
leave a function, let a host program run or restart a loop.  An invariant of tellings
has to be checked against these moves only.
-/

namespace WebAssembly

/-- The calls that were entered and not left, innermost first. -/
def pending : List Scene → List FuncInst
  | [] => []
  | scene :: older =>
    match scene.incident with
    | .entered f => f :: pending older
    | .left => (pending older).tail
    | _ => pending older

/-- The property holds of every scene with those before it. -/
def Throughout (P : Scene → List Scene → Prop) (scenes : List Scene) : Prop :=
  ∀ scene older, scene :: older <:+ scenes → P scene older

namespace Throughout

variable {P : Scene → List Scene → Prop}

theorem nil : Throughout P [] :=
  fun _ _ hsuffix => absurd (List.suffix_nil.mp hsuffix) (List.cons_ne_nil _ _)

theorem cons
    {scene : Scene} {older : List Scene} (h : Throughout P older)
    (hscene : P scene older) :
    Throughout P (scene :: older) := by
  intro scene' older' hsuffix
  obtain hsame | hsuffix := List.suffix_cons_iff.mp hsuffix
  · obtain ⟨rfl, rfl⟩ := List.cons.inj hsame
    exact hscene
  · exact h scene' older' hsuffix

end Throughout

/-- The runs have the same active functions and the same contexts. -/
structure Run.Kin (r r' : Run) : Prop where
  active : r'.active = r.active
  contexts : r'.session.contexts = r.session.contexts

namespace Run.Kin

variable {r r' r'' : Run}

theorem refl (r : Run) : r.Kin r :=
  ⟨rfl, rfl⟩

theorem trans
    (h : r.Kin r') (h' : r'.Kin r'') : r.Kin r'' :=
  ⟨h'.active.trans h.active, h'.contexts.trans h.contexts⟩

end Run.Kin

/-- The cause is neither the ceiling of calls, nor a done context, nor the bound on the
length of the run. -/
def Abort.IsLocal : Abort → Prop
  | .trap .callStackOverflow | .trap (.contextDone _) | .exhausted => False
  | _ => True

theorem Abort.IsOrdinary.isLocal
    {cause : Abort} (h : cause.IsOrdinary) : cause.IsLocal := by
  cases cause with
  | trap cause => cases cause <;> trivial
  | bug => trivial
  | exhausted => exact h

/-! ## Calm steps -/

namespace Exec

variable {α β : Type} {P : α → Prop} {Q : β → Prop} {x : Exec α} {f : α → Exec β}

/-- The step leaves the active functions and the contexts as they are, and fails only by
itself. -/
def Calm (P : α → Prop) (x : Exec α) : Prop :=
  ∀ r, Ends x r (fun a r' => P a ∧ r.Kin r') fun cause r' => cause.IsLocal ∧ r.Kin r'

namespace Calm

theorem bind
    (hx : Calm P x) (hf : ∀ a, P a → Calm Q (f a)) : Calm Q (x >>= f) := by
  intro r
  refine (hx r).bind fun a r' h => (hf a h.1 r').mono (fun b r'' h' => ?_)
    fun cause r'' h' => ?_
  · exact ⟨h'.1, h.2.trans h'.2⟩
  · exact ⟨h'.1, h.2.trans h'.2⟩

theorem pure
    {a : α} (h : P a) : Calm P (Pure.pure a) :=
  fun r => ⟨h, .refl r⟩

/-- What does the same in two stores that share everything is calm. -/
theorem of_shared
    (h : ∀ s : Store, Shared (s.Refilled s) P x) : Calm P x := by
  intro r
  have hself : r.session.store.Refilled r.session.store r.session.store
      r.session.store := ⟨_, _, rfl, rfl⟩
  obtain ⟨store, _, locals, stack, -, ⟨a, ha, hok, -⟩ | ⟨cause, hcause, herror, -⟩⟩ :=
    h r.session.store r.machine r.machine r.stack hself rfl
  · exact Ends.of_eq_ok hok ⟨ha, rfl, rfl⟩
  · exact Ends.of_eq_error herror ⟨hcause.isLocal, rfl, rfl⟩

end Calm

theorem calm_countStep (setting : Setting) :
    Calm (fun _ => True) (countStep setting) := by
  intro r
  have hcount := countStep_on setting r.machine r.stack
  by_cases hspent : setting.Spent (setting.tick r.machine.steps)
  · rw [if_pos hspent] at hcount
    exact Ends.of_eq_error hcount ⟨trivial, rfl, rfl⟩
  · rw [if_neg hspent] at hcount
    exact Ends.of_eq_ok hcount ⟨trivial, rfl, rfl⟩

theorem calm_record (setting : Setting) (moment : Moment) :
    Calm (fun _ => True) (record setting moment) :=
  fun r => Ends.of_eq_ok (record_on setting r.machine r.stack moment)
    ⟨trivial, rfl, rfl⟩

theorem calm_take {pop : Stack → Except Bug (α × Stack)} :
    Calm (fun _ => True) (take pop) := by
  intro r
  unfold Ends take
  cases pop r.stack with
  | ok result => exact ⟨trivial, rfl, rfl⟩
  | error cause => exact ⟨trivial, .refl r⟩

theorem calm_popU32 : Calm (fun _ => True) popU32 :=
  calm_take.bind fun _ _ => .pure trivial

theorem calm_rearrange {change : Stack → Except Bug Stack} :
    Calm (fun _ => True) (rearrange change) := by
  intro r
  unfold Ends rearrange
  cases change r.stack with
  | ok stack => exact ⟨trivial, rfl, rfl⟩
  | error cause => exact ⟨trivial, .refl r⟩

theorem calm_pushMark {entry : Entry} : Calm (fun _ => True) (pushMark entry) :=
  fun _ => ⟨trivial, rfl, rfl⟩

theorem calm_pushAll {values : List Val} : Calm (fun _ => True) (pushAll values) :=
  fun _ => ⟨trivial, rfl, rfl⟩

theorem calm_setLocals {locals : Array Val} :
    Calm (fun _ => True) (modify fun r : Run => { r with locals }) :=
  fun _ => ⟨trivial, rfl, rfl⟩

theorem calm_openBlock (params arity : Nat) :
    Calm (fun _ => True) (openBlock params arity) :=
  calm_take.bind fun _ _ => calm_pushMark.bind fun _ _ => calm_pushAll

theorem calm_fallThrough (results : Nat) : Calm (fun _ => True) (fallThrough results) :=
  calm_take.bind fun _ _ => calm_rearrange.bind fun _ _ =>
    calm_pushAll.bind fun _ _ => .pure trivial

theorem calm_branch (label : UInt32) : Calm (fun _ => True) (branch label) :=
  calm_rearrange.bind fun _ _ => .pure trivial

theorem calm_leaveBody (function : String) (arity : Nat) (outer : Array Val)
    (signal : Signal) :
    Calm (fun _ => True) (leaveBody function arity outer signal) := by
  have hrest : Calm (fun _ => True)
      (rearrange (Stack.leave function arity) >>= fun _ => modify fun r : Run =>
        { r with locals := outer }) :=
    calm_rearrange.bind fun _ _ => calm_setLocals
  cases signal with
  | next | ret => exact hrest
  | branch depth =>
    cases depth with
    | zero => exact hrest
    | succ => exact fun r => ⟨trivial, .refl r⟩

theorem calm_activate (f : FuncInst) (arity : Nat) (params : List Val) :
    Calm (fun _ => True) (activate f arity params) :=
  fun _ => ⟨trivial, rfl, rfl⟩

theorem funcInst_of_some
    {function : UInt32} {g : FuncInst} {r : Run}
    (h : r.session.store.functions[function.toNat]? = some g) :
    funcInst function r = .ok g r := by
  have hlookup : funcInst function r =
      present r.session.store.functions[function.toNat]? r := rfl
  rw [hlookup, h]
  rfl

theorem funcInst_of_none
    {function : UInt32} {r : Run}
    (h : r.session.store.functions[function.toNat]? = none) :
    funcInst function r = .error (.bug .crash) r := by
  have hlookup : funcInst function r =
      present r.session.store.functions[function.toNat]? r := rfl
  rw [hlookup, h]
  rfl

theorem calm_receive (f : FuncInst) :
    Calm (fun received => received.1.Of f) (receive f) :=
  .of_shared fun s => shared_receive (sharing_refilled (s := s) rfl rfl rfl)
    fun _ => trivial

theorem calm_announce (events : List Event) :
    Calm (fun _ => True) (announce events) := by
  have hcontexts (s : Session) : (events.foldl Session.observe s).contexts =
      s.contexts := by
    induction events generalizing s with
    | nil => rfl
    | cons event events ih => exact ih (s.observe event)
  exact fun r => ⟨trivial, rfl, hcontexts r.session⟩

theorem calm_finishHost (function : UInt32) (name : String) (hostEnd : HostEnd) :
    Calm (fun _ => True) (finishHost function name hostEnd) :=
  .of_shared fun s => shared_finishHost (sharing_refilled (s := s) rfl rfl rfl)
    trivial hostEnd

theorem calm_plain (module : UInt32) (instr : Instr) :
    Calm (fun _ => True) (plain module instr) :=
  .of_shared fun s => shared_plain (sharing_refilled (s := s) rfl rfl rfl) trivial instr

theorem calm_callee (module index : UInt32) :
    Calm (fun _ => True) (currentModule module >>= fun inst =>
      functionAt inst index) := by
  refine .of_shared fun s => ?_
  have hshare : Sharing Region.all s (s.Refilled s) := sharing_refilled rfl rfl rfl
  have hmodule : Region.all (.module module) := trivial
  exact (shared_currentModule hshare hmodule).bind fun _ hinst =>
    (shared_functionAt hshare hmodule hinst).mono fun _ _ => trivial

theorem calm_indirectCallee (module type : UInt32) :
    Calm (fun _ => True) (currentModule module >>= fun inst =>
      indirectTarget inst type) := by
  refine .of_shared fun s => ?_
  have hshare : Sharing Region.all s (s.Refilled s) := sharing_refilled rfl rfl rfl
  have hmodule : Region.all (.module module) := trivial
  exact (shared_currentModule hshare hmodule).bind fun _ hinst =>
    (shared_indirectTarget hshare hmodule hinst).mono fun _ _ => trivial

/-! ## Steps that are not calm -/

/-- A call is refused for lack of room or for a done context, or it is entered. -/
theorem enter_cases (setting : Setting) (name : String) (r : Run) :
    (setting.config.ceiling ≤ r.active.size ∧
      enter setting name r = .error (.trap .callStackOverflow) r) ∨
      (r.active.size < setting.config.ceiling ∧ ∃ reason,
        setting.interruption r.session = some reason ∧
        enter setting name r = .error (.trap (.contextDone reason)) r) ∨
      (r.active.size < setting.config.ceiling ∧ setting.interruption r.session = none ∧
        ∃ r' : Run, r'.active = r.active.push name ∧ r'.session = r.session ∧
          enter setting name r = .ok () r') := by
  have henter := enter_on setting r.machine r.stack name
  have hcheck := checkInterrupt_on setting r.machine r.stack
  by_cases hfull : setting.config.ceiling ≤ r.active.size
  · exact .inl ⟨hfull, henter.trans (if_pos hfull)⟩
  · have hroom := Int.not_le.mp hfull
    have hbegin := henter.trans (if_neg hfull)
    cases hinterruption : setting.interruption r.session with
    | some reason =>
      simp only [Run.machine, hinterruption] at hcheck
      exact .inr (.inl ⟨hroom, reason, rfl, hbegin.trans (bind_eq_of_eq_error hcheck)⟩)
    | none =>
      simp only [Run.machine, hinterruption] at hcheck
      let m : Machine := { r.machine with active := r.active.push name }
      refine .inr (.inr ⟨hroom, rfl, (m.noted setting (.entered name)).on r.stack, rfl,
        rfl, hbegin.trans ?_⟩)
      exact (bind_eq_of_eq_ok hcheck).trans
        (record_on setting m r.stack (.entered name))

theorem restart_cases (setting : Setting) (r : Run) :
    (∃ reason, setting.interruption r.session = some reason ∧
        restart setting r = .error (.trap (.contextDone reason)) r) ∨
      (setting.interruption r.session = none ∧ ∃ r', r.Kin r' ∧
        restart setting r = .ok () r') := by
  have hcheck := checkInterrupt_on setting r.machine r.stack
  cases hinterruption : setting.interruption r.session with
  | some reason =>
    simp only [Run.machine, hinterruption] at hcheck
    exact .inl ⟨reason, rfl, bind_eq_of_eq_error hcheck⟩
  | none =>
    simp only [Run.machine, hinterruption] at hcheck
    refine .inr ⟨rfl, (r.machine.noted setting .restarted).on r.stack, ⟨rfl, rfl⟩, ?_⟩
    exact (bind_eq_of_eq_ok hcheck).trans
      (record_on setting r.machine r.stack .restarted)

theorem exists_exit (setting : Setting) (r : Run) :
    ∃ r' : Run, r'.active = r.active.pop ∧ r'.session = r.session ∧
      exit setting r = .ok () r' :=
  let m : Machine := { r.machine with active := r.active.pop }
  ⟨(m.noted setting .left).on r.stack, rfl, rfl, record_on setting m r.stack .left⟩

end Exec

/-! ## Positions of code -/

def FuncInst.Holds (f : FuncInst) (position : Nat) (text : List Instr) : Prop :=
  text <+: (Instr.occurrencesIn f.body).drop position

namespace FuncInst.Holds

variable {f : FuncInst} {position : Nat} {first second : List Instr} {instr : Instr}

theorem whole (f : FuncInst) : f.Holds 0 (Instr.occurrencesIn f.body) :=
  List.prefix_rfl

theorem left
    (h : f.Holds position (first ++ second)) : f.Holds position first :=
  (List.prefix_append first second).trans h

theorem right
    (h : f.Holds position (first ++ second)) :
    f.Holds (position + first.length) second := by
  obtain ⟨after, h⟩ := h
  refine ⟨after, ?_⟩
  rw [← List.drop_drop, ← h, List.append_assoc, List.drop_left]

theorem getElem?
    (h : f.Holds position (instr :: second)) :
    (Instr.occurrencesIn f.body)[position]? = some instr := by
  obtain ⟨after, h⟩ := h
  rw [← List.head?_drop, ← h]
  rfl

end FuncInst.Holds

/-- The code that the instruction asks to enter lies inside the instruction at the given
distance. -/
def Instr.Aims (instr : Instr) (aim : Transfer × Nat) : Prop :=
  ∀ {isLoop params results body}, aim.1 = .enter isLoop params results body →
    ∃ before after, instr.occurrences = instr :: before ++
        (Instr.occurrencesIn body ++ after) ∧
      aim.2 = (instr :: before).length

/-- The instruction enters no code. -/
def Transfer.Stays : Transfer → Prop
  | .enter .. => False
  | _ => True

namespace Exec

theorem calm_transfer
    (module : UInt32) {instr : Instr} (hblock : ∀ type body, instr ≠ .block type body)
    (hloop : ∀ type body, instr ≠ .loop type body)
    (hif : ∀ type whenTrue whenFalse, instr ≠ .ifElse type whenTrue whenFalse) :
    Calm Transfer.Stays (transfer module instr) := by
  cases instr with
  | block => exact absurd rfl (hblock _ _)
  | loop => exact absurd rfl (hloop _ _)
  | ifElse => exact absurd rfl (hif _ _ _)
  | br | ret => exact .pure trivial
  | brTable => exact calm_popU32.bind fun _ _ => .pure trivial
  | brIf =>
    refine calm_popU32.bind fun condition _ => .pure ?_
    split <;> trivial
  | call index =>
    have hcallee : transfer module (.call index) =
        (currentModule module >>= fun inst => functionAt inst index) >>= fun function =>
          pure (.call function) := by
      rw [bind_assoc]
      rfl
    rw [hcallee]
    exact (calm_callee module index).bind fun _ _ => .pure trivial
  | callIndirect type =>
    have hcallee : transfer module (.callIndirect type) =
        (currentModule module >>= fun inst => indirectTarget inst type) >>=
          fun function => pure (.call function) := by
      rw [bind_assoc]
      rfl
    rw [hcallee]
    exact (calm_indirectCallee module type).bind fun _ _ => .pure trivial
  | _ => exact (calm_plain module _).bind fun _ _ => .pure trivial

theorem calm_steer (module : UInt32) (instr : Instr) :
    Calm instr.Aims (steer module instr) := by
  have hstays (hblock : ∀ type body, instr ≠ .block type body) (hloop : ∀ type body,
      instr ≠ .loop type body)
      (hif : ∀ type whenTrue whenFalse, instr ≠ .ifElse type whenTrue whenFalse) :
      Calm instr.Aims (steer module instr) := by
    rw [steer_eq module instr hif]
    refine (calm_transfer module hblock hloop hif).bind fun transfer htransfer =>
      .pure fun henter => ?_
    cases henter
    exact htransfer.elim
  cases instr with
  | ifElse type whenTrue whenFalse =>
    refine calm_popU32.bind fun v _ => Calm.pure ?_
    split
    · rintro _ _ _ _ ⟨⟩
      exact ⟨[], Instr.occurrencesIn whenFalse, rfl, rfl⟩
    · rintro _ _ _ _ ⟨⟩
      refine ⟨Instr.occurrencesIn whenTrue, [], ?_, Nat.add_comm _ _⟩
      rw [Instr.occurrences, List.append_nil, List.cons_append]
  | block type body | loop type body =>
    refine Calm.pure ?_
    rintro _ _ _ _ ⟨⟩
    exact ⟨[], [], by rw [Instr.occurrences, List.append_nil]; rfl, rfl⟩
  | _ => exact hstays (by rintro _ _ ⟨⟩) (by rintro _ _ ⟨⟩) (by rintro _ _ _ ⟨⟩)

end Exec

/-! ## Moves and halts -/

/-- One move from a position in a telling to another.  What the program of a host
function does to the session is left open. -/
inductive Move (setting : Setting) (Hosts : Session → Session → Prop) :
    Nat × Telling → Nat × Telling → Prop
  | calm {position t r} (kin : t.run.Kin r) :
    Move setting Hosts (position, t) (position, t.goOn r)
  | advance {position t} (count : Nat) :
    Move setting Hosts (position, t) (position + count, t)
  | dispatch {position t f rest instr} (inside : pending t.scenes = f :: rest)
      (occurs : (Instr.occurrencesIn f.body)[position]? = some instr) :
      Move setting Hosts (position, t) (position + 1,
        t.tell position (.dispatched instr))
  | enter {position t f r} (room : t.run.active.size < setting.config.ceiling)
      (live : setting.interruption t.run.session = none) (active : r.active =
        t.run.active.push f.name)
      (session : r.session = t.run.session) :
      Move setting Hosts (position, t) (0,
        ((t.tell position .calling).goOn r).tell position (.entered f))
  | answer {position t r} (outside : Nat) (active : r.active = t.run.active)
      (host : Hosts t.run.session r.session) :
      Move setting Hosts (position, t) (position, (t.goOn r).tell outside .answered)
  | leave {position t f rest r} (outside : Nat) (inside : pending t.scenes = f :: rest)
      (active : r.active = t.run.active.pop) (session : r.session = t.run.session) :
      Move setting Hosts (position, t) (outside, (t.goOn r).tell outside .left)
  | restart {position t r} (start : Nat) (live : setting.interruption t.run.session =
    none) (kin : t.run.Kin r) :
      Move setting Hosts (position, t) (start,
        ((t.tell start .looping).goOn r).tell start .restarted)

/-- The telling comes to an end for a cause. -/
inductive Halt (setting : Setting) (Hosts : Session → Session → Prop) :
    Nat × Telling → Abort → Telling → Prop
  | calm {position t cause r} (kin : t.run.Kin r) (isLocal : cause.IsLocal) :
      Halt setting Hosts (position, t) cause (t.goOn r)
  | exhausted {position t} : Halt setting Hosts (position, t) .exhausted t
  | host {position t cause r} (own : cause.IsLocal ∨ cause = .exhausted)
    (active : r.active = t.run.active)
      (host : Hosts t.run.session r.session) :
        Halt setting Hosts (position, t) cause (t.goOn r)
  | overflow {position t} (full : setting.config.ceiling ≤ t.run.active.size) :
      Halt setting Hosts (position, t) (.trap .callStackOverflow)
        (t.tell position .calling)
  | refuse {position t reason} (room : t.run.active.size < setting.config.ceiling)
      (done : setting.interruption t.run.session = some reason) :
      Halt setting Hosts (position, t) (.trap (.contextDone reason))
        (t.tell position .calling)
  | stop {position t reason} (start : Nat) (done : setting.interruption t.run.session =
    some reason) :
      Halt setting Hosts (position, t) (.trap (.contextDone reason))
        (t.tell start .looping)

/-- A telling goes on by moves. -/
abbrev Moves (setting : Setting) (Hosts : Session → Session → Prop) :
    Nat × Telling → Nat × Telling → Prop :=
  Relation.ReflTransGen (Move setting Hosts)

/-- Coming from a place, the telling has halted, and of the calls in progress the given
property holds. -/
def Halted (setting : Setting) (Hosts : Session → Session → Prop)
    (C : List FuncInst → Prop) (origin : Nat × Telling) (cause : Abort)
    (t : Telling) : Prop :=
  C (pending t.scenes) ∧ ∃ place, Moves setting Hosts origin place ∧
    Halt setting Hosts place cause t

namespace Told

variable {α β : Type} {t : Telling} {r : Run} {cause : Abort} {x : Exec α}
  {y : Exec Unit} {f : Unit → Told β} {position : Nat} {attempt : Incident}

theorem silent_of_ok
    {a : α} (h : x t.run = .ok a r) : silent x t = .ok a (t.goOn r) := by
  simp only [silent, h]

theorem silent_of_error
    (h : x t.run = .error cause r) : silent x t = .error cause (t.goOn r) := by
  simp only [silent, h]

/-- An attempt is told of before it is made. -/
theorem attempt_of_ok
    (h : y t.run = .ok () r) :
    (tell position attempt >>= fun _ => silent y >>= f) t =
      f () ((t.tell position attempt).goOn r) := by
  have hsilent : silent y (t.tell position attempt) =
      .ok () ((t.tell position attempt).goOn r) := silent_of_ok h
  exact (bind_eq_of_eq_ok rfl).trans (bind_eq_of_eq_ok hsilent)

theorem attempt_of_error
    (h : y t.run = .error cause t.run) :
    (tell position attempt >>= fun _ => silent y >>= f) t =
      .error cause (t.tell position attempt) := by
  have hsilent : silent y (t.tell position attempt) =
      .error cause (t.tell position attempt) := silent_of_error h
  exact (bind_eq_of_eq_ok rfl).trans (bind_eq_of_eq_error hsilent)

end Told

/-- From a place the step moves to a position and is then inside the given calls, or it
halts on the way. -/
def Journey (setting : Setting) (Hosts : Session → Session → Prop)
    (C : List FuncInst → Prop) {α : Type} (P : α → Prop) (origin : Nat × Telling)
    (goal : Nat) (frames : List FuncInst) (x : Told α) : Prop :=
  Ends x origin.2 (fun a t => P a ∧ pending t.scenes = frames ∧
    Moves setting Hosts origin (goal, t))
    (Halted setting Hosts C origin)

namespace Journey

variable {setting : Setting} {Hosts : Session → Session → Prop}
  {C : List FuncInst → Prop} {α β : Type} {P : α → Prop} {Q : β → Prop}
  {origin : Nat × Telling} {position goal goal' : Nat} {t : Telling}
  {frames frames' : List FuncInst} {x : Told α} {f : α → Told β}

/-- What comes after some moves comes after all of them. -/
theorem prepend
    {place : Nat × Telling} (hmoves : Moves setting Hosts origin place)
    (h : Journey setting Hosts C P place goal frames x) :
    Ends x place.2 (fun a t => P a ∧ pending t.scenes = frames ∧
      Moves setting Hosts origin (goal, t))
      (Halted setting Hosts C origin) := by
  refine Ends.mono h (fun a t => ?_) fun cause t => ?_
  · rintro ⟨ha, hframes, hrest⟩
    exact ⟨ha, hframes, hmoves.trans hrest⟩
  · rintro ⟨hC, place', hrest, hhalt⟩
    exact ⟨hC, place', hmoves.trans hrest, hhalt⟩

theorem bind
    (hx : Journey setting Hosts C P origin goal frames x)
    (hf : ∀ a t, P a → pending t.scenes = frames → Journey setting Hosts C Q (goal,
      t) goal' frames' (f a)) :
    Journey setting Hosts C Q origin goal' frames' (x >>= f) :=
  Ends.bind hx fun a t ⟨ha, hframes, hmoves⟩ => (hf a t ha hframes).prepend hmoves

theorem pure
    {a : α} (ha : P a) (hframes : pending t.scenes = frames) :
    Journey setting Hosts C P (goal, t) goal frames (Pure.pure a) :=
  ⟨ha, hframes, .refl⟩

theorem advance
    (h : Journey setting Hosts C P origin goal frames x) (count : Nat) :
    Journey setting Hosts C P origin (goal + count) frames x :=
  Ends.mono h (fun _ _ ⟨ha, hframes, hmoves⟩ =>
    ⟨ha, hframes, hmoves.tail (.advance count)⟩) fun _ _ => id

theorem mono
    {C' : List FuncInst → Prop} (h : Journey setting Hosts C P origin goal frames x)
    (hC : ∀ calls, C calls → C' calls) :
    Journey setting Hosts C' P origin goal frames x :=
  Ends.mono h (fun _ _ => id) fun _ _ ⟨hcalls, hrest⟩ => ⟨hC _ hcalls, hrest⟩

/-- A calm step about which nothing is told. -/
theorem silent
    {y : Exec α} (hy : y.Calm P) (hC : C frames) (hframes : pending t.scenes = frames) :
    Journey setting Hosts C P (position, t) position frames (Told.silent y) := by
  cases h : y t.run with
  | ok a r =>
    obtain ⟨ha, hkin⟩ := (hy t.run).onOk h
    exact Ends.of_eq_ok (Told.silent_of_ok h) ⟨ha, hframes, .single (.calm hkin)⟩
  | error cause r =>
    obtain ⟨hlocal, hkin⟩ := (hy t.run).onError h
    exact Ends.of_eq_error (Told.silent_of_error h) ⟨hframes ▸ hC, _, .refl,
      .calm hkin hlocal⟩

/-- A step that begins with one move. -/
theorem of_move
    {y : Told α} {t' : Telling} (hx : x t = y t')
    (hmove : Move setting Hosts (position, t) (goal, t'))
    (hy : Journey setting Hosts C P (goal, t') goal' frames y) :
    Journey setting Hosts C P (position, t) goal' frames x := by
  exact Ends.of_eq hx (hy.prepend (.single hmove))

/-- A step that halts where it begins. -/
theorem of_halt
    {cause : Abort} {t' : Telling} (hx : x t = .error cause t')
    (hC : C (pending t'.scenes)) (hhalt : Halt setting Hosts (position, t) cause t') :
    Journey setting Hosts C P (position, t) goal frames x :=
  Ends.of_eq_error hx ⟨hC, _, .refl, hhalt⟩

/-- Code may lie behind the position from which it is reached. -/
theorem from_behind
    (count : Nat) (h : Journey setting Hosts C P (position + count, t) goal frames x) :
    Journey setting Hosts C P (position, t) goal frames x :=
  of_move rfl (.advance count) h

end Journey

/-! ## The interpreter moves -/

namespace Engine

open Exec Told

variable {setting : Setting} {Hosts : Session → Session → Prop} {fuel : Nat}
  {t : Telling} {f : FuncInst} {rest : List FuncInst} {C : List FuncInst → Prop}

theorem journey_dispatch
    (module : UInt32) {position : Nat} {instr : Instr}
    (hframes : pending t.scenes = f :: rest)
    (hholds : f.Holds position instr.occurrences) :
    Journey setting Hosts (f :: rest <:+ ·) instr.Aims (position, t)
      (position + 1) (f :: rest)
      (tellDispatch setting module position instr) := by
  obtain ⟨inner, hinner⟩ := instr.exists_occurrences
  rw [hinner] at hholds
  refine Journey.bind (.silent (calm_countStep setting) List.suffix_rfl hframes)
    fun _ t₁ _ h₁ => ?_
  refine Journey.of_move (bind_eq_of_eq_ok rfl) (.dispatch h₁ hholds.getElem?) ?_
  refine Journey.bind (.silent (calm_record setting _) List.suffix_rfl h₁)
    fun _ t₂ _ h₂ => ?_
  exact .silent (calm_steer module instr) List.suffix_rfl h₂

theorem journey_restart
    {frames : List FuncInst} (hC : C frames) {position : Nat} (start : Nat)
    (hframes : pending t.scenes = frames) :
    Journey setting Hosts C (fun _ => True) (position, t) start frames
      (tellRestart setting start) := by
  obtain ⟨reason, hdone, herror⟩ | ⟨hlive, r, hkin, hok⟩ := restart_cases setting t.run
  · exact .of_halt (attempt_of_error herror) (hframes ▸ hC) (.stop start hdone)
  · exact Ends.of_eq_ok (attempt_of_ok hok) ⟨trivial, hframes,
      .single (.restart start hlive hkin)⟩

/-- The last step of a call. -/
theorem journey_leave
    {position : Nat} (outside : Nat) (hframes : pending t.scenes = f :: rest) :
    Journey setting Hosts C (fun _ => True) (position, t) outside rest
      (tellLeave setting outside) := by
  obtain ⟨r, hactive, hsession, hexit⟩ := exists_exit setting t.run
  have hleft : tellLeave setting outside t = .ok () ((t.goOn r).tell outside .left) :=
    bind_eq_of_eq_ok (silent_of_ok hexit)
  refine Ends.of_eq_ok hleft ⟨trivial, ?_,
    .single (.leave outside hframes hactive hsession)⟩
  exact congrArg List.tail hframes

/-- The calls in progress are those before the call, or the function has been entered
and not left. -/
def InCall (function : UInt32) (t : Telling) (calls : List FuncInst) : Prop :=
  calls = pending t.scenes ∨
    ∃ f, t.run.session.store.functions[function.toNat]? = some f ∧
      f :: pending t.scenes <:+ calls

/-- Within the bound, code moves through its positions and ends behind them, and a call
comes back to where it was made. -/
structure Travels (setting : Setting) (Hosts : Session → Session → Prop)
    (fuel : Nat) : Prop where
  instruction : ∀ module position instr t f rest, pending t.scenes = f :: rest →
    f.Holds position instr.occurrences →
    Journey setting Hosts (f :: rest <:+ ·) (fun _ => True) (position, t)
      (position + instr.extent) (f :: rest)
      (tellInstr fuel setting module position instr)
  sequence : ∀ module position body t f rest, pending t.scenes = f :: rest →
    f.Holds position (Instr.occurrencesIn body) →
    Journey setting Hosts (f :: rest <:+ ·) (fun _ => True) (position, t)
      (position + Instr.extentOf body) (f :: rest)
      (tellSequence fuel setting module position body)
  block : ∀ module position isLoop params results body t f rest,
    pending t.scenes = f :: rest →
    f.Holds position (Instr.occurrencesIn body) →
    Journey setting Hosts (f :: rest <:+ ·) (fun _ => True) (position, t)
      (position + Instr.extentOf body) (f :: rest)
      (tellBlock fuel setting module position isLoop params results body)
  call : ∀ position function t,
    Journey setting Hosts (InCall function t) (fun _ => True) (position, t) position
      (pending t.scenes)
      (tellCall fuel setting position function)

theorem InCall.suffix
    {function : UInt32} {t : Telling} {calls frames : List FuncInst}
    (hframes : pending t.scenes = frames) (h : InCall function t calls) :
    frames <:+ calls := by
  obtain rfl | ⟨f, -, hsuffix⟩ := h
  · exact hframes ▸ List.suffix_rfl
  · exact (List.suffix_cons f frames).trans (hframes ▸ hsuffix)

theorem tellSummon_of_none
    {position : Nat} {function : UInt32}
    (hf : t.run.session.store.functions[function.toNat]? = none) :
    tellSummon setting position function t = .error (.bug .crash) t :=
  bind_eq_of_eq_error (silent_of_error (funcInst_of_none hf))

/-- A function that exists is entered, unless the call is refused. -/
theorem journey_summon
    (position : Nat) {function : UInt32}
    (hf : t.run.session.store.functions[function.toNat]? = some f) :
    Journey setting Hosts (InCall function t) (·.Of f) (position, t) 0
      (f :: pending t.scenes)
      (tellSummon setting position function) := by
  have hfound := silent_of_ok (t := t) (funcInst_of_some hf)
  have hinside : InCall function t (f :: pending t.scenes) :=
    .inr ⟨f, hf, List.suffix_rfl⟩
  refine .of_move (bind_eq_of_eq_ok hfound) (.advance 0) ?_
  obtain ⟨hfull, herror⟩ | ⟨hroom, reason, hdone, herror⟩ | ⟨hroom, hlive, r, hactive,
      hsession, hok⟩ :=
    enter_cases setting f.name t.run
  · exact .of_halt (attempt_of_error herror) (.inl rfl) (.overflow hfull)
  · exact .of_halt (attempt_of_error herror) (.inl rfl) (.refuse hroom hdone)
  · refine .of_move ((attempt_of_ok hok).trans (bind_eq_of_eq_ok rfl))
      (.enter hroom hlive hactive hsession) ?_
    refine Journey.bind (.silent (calm_receive f) hinside rfl)
      fun received t₁ hof h₁ => ?_
    refine Journey.bind (.silent (calm_announce received.2) hinside h₁)
      fun _ t₂ _ h₂ => ?_
    exact .pure hof h₂

namespace Travels

variable (ih : Travels setting Hosts fuel)
include ih

theorem instruction_succ
    (module : UInt32) (position : Nat) (instr : Instr) (t : Telling) (f : FuncInst)
    (rest : List FuncInst) (hframes : pending t.scenes = f :: rest)
    (hholds : f.Holds position instr.occurrences) :
    Journey setting Hosts (f :: rest <:+ ·) (fun _ => True) (position, t)
      (position + instr.extent) (f :: rest)
      (tellInstr (fuel + 1) setting module position instr) := by
  obtain ⟨inner, hinner⟩ := instr.exists_occurrences
  have hextent : position + instr.extent = position + 1 + inner.length := by
    rw [Instr.extent, hinner, List.length_cons]
    omega
  rw [tellInstr]
  refine Journey.bind (journey_dispatch module hframes hholds) fun aim t₁ haim h₁ => ?_
  obtain ⟨transfer, offset⟩ := aim
  cases transfer with
  | next => exact hextent ▸ (Journey.pure trivial h₁).advance inner.length
  | branch label =>
      exact hextent ▸ (Journey.silent (calm_branch label) List.suffix_rfl h₁).advance
        inner.length
  | ret =>
    refine hextent ▸ Journey.advance ?_ inner.length
    exact Journey.bind (.silent calm_rearrange List.suffix_rfl h₁)
      fun _ t₂ _ h₂ => .pure trivial h₂
  | call function =>
    refine hextent ▸ Journey.advance ?_ inner.length
    refine Journey.bind ((ih.call (position + 1) function t₁).mono fun _ =>
      InCall.suffix h₁) fun _ t₂ _ h₂ => ?_
    exact .pure trivial (h₂.trans h₁)
  | enter isLoop params results body =>
    obtain ⟨before, after, htext, rfl⟩ := haim rfl
    have hgoal : position + instr.extent =
        position + 1 + before.length + Instr.extentOf body + after.length := by
      simp only [Instr.extent, Instr.extentOf, htext, List.length_append,
        List.length_cons]
      omega
    have hposition : position + (instr :: before).length = position + 1 +
        before.length := by
      rw [List.length_cons]
      omega
    rw [htext] at hholds
    have hbody := hholds.right.left
    rw [hposition] at hbody
    simp only [hposition]
    refine hgoal ▸ Journey.advance (Journey.from_behind before.length ?_) after.length
    exact ih.block module _ isLoop params results body t₁ f rest h₁ hbody

theorem sequence_succ
    (module : UInt32) (position : Nat) (body : List Instr) (t : Telling) (f : FuncInst)
    (rest : List FuncInst) (hframes : pending t.scenes = f :: rest)
    (hholds : f.Holds position (Instr.occurrencesIn body)) :
    Journey setting Hosts (f :: rest <:+ ·) (fun _ => True) (position, t)
      (position + Instr.extentOf body) (f :: rest)
      (tellSequence (fuel + 1) setting module position body) := by
  cases body with
  | nil => exact .pure trivial hframes
  | cons instr following =>
    rw [tellSequence, Instr.extentOf_cons, ← Nat.add_assoc]
    refine Journey.bind (ih.instruction module position instr t f rest hframes
      hholds.left) fun signal t₁ _ h₁ => ?_
    cases signal with
    | next => exact ih.sequence module _ following t₁ f rest h₁ hholds.right
    | branch | ret => exact (Journey.pure trivial h₁).advance _

theorem block_succ
    (module : UInt32) (position : Nat) (isLoop : Bool) (params results : Nat)
    (body : List Instr) (t : Telling) (f : FuncInst) (rest : List FuncInst)
    (hframes : pending t.scenes = f :: rest)
    (hholds : f.Holds position (Instr.occurrencesIn body)) :
    Journey setting Hosts (f :: rest <:+ ·) (fun _ => True) (position, t)
      (position + Instr.extentOf body) (f :: rest)
      (tellBlock (fuel + 1) setting module position isLoop params results body) := by
  rw [tellBlock]
  refine Journey.bind (.silent (calm_openBlock _ _) List.suffix_rfl hframes)
    fun _ t₁ _ h₁ => ?_
  refine Journey.bind (ih.sequence module position body t₁ f rest h₁ hholds)
    fun signal t₂ _ h₂ => ?_
  cases signal with
  | next => exact .silent (calm_fallThrough results) List.suffix_rfl h₂
  | ret => exact .pure trivial h₂
  | branch depth =>
    cases depth with
    | succ => exact .pure trivial h₂
    | zero =>
      cases isLoop with
      | false => exact .pure trivial h₂
      | true =>
        refine Journey.bind (journey_restart List.suffix_rfl position h₂)
          fun _ t₃ _ h₃ => ?_
        exact ih.block module position true params results body t₃ f rest h₃ hholds

omit ih in
/-- A host function is called, once it has been entered. -/
theorem journey_host
    (hhosts : ∀ program s, Ends (runHost fuel setting.context program) s
      (fun _ => Hosts s) fun _ => Hosts s)
    (hC : C (f :: rest)) {position : Nat} (outside : Nat) (function : UInt32)
    (name : String) (program : HostProgram) (hframes : pending t.scenes = f :: rest) :
    Journey setting Hosts C (fun _ => True) (position, t) outside rest
      (silent (onSession (runHost fuel setting.context program)) >>= fun hostEnd =>
        tell outside .answered >>= fun _ =>
        silent (finishHost function name hostEnd) >>= fun _ =>
          tellLeave setting outside) := by
  have hends : Ends (onSession (runHost fuel setting.context program)) t.run
      (fun _ r => r.active = t.run.active ∧ Hosts t.run.session r.session)
        fun cause r =>
        (cause.IsLocal ∨ cause = .exhausted) ∧ r.active = t.run.active ∧
          Hosts t.run.session r.session := by
    refine ends_onSession (hhosts program t.run.session) (fun _ _ h => ⟨rfl, h⟩)
      fun error _ h => ⟨?_, rfl, h⟩
    cases error with
    | exhausted => exact .inr rfl
    | _ => exact .inl trivial
  cases hhost : onSession (runHost fuel setting.context program) t.run with
  | error cause r =>
    obtain ⟨hcause, hactive, hsession⟩ := hends.onError hhost
    exact .of_halt (bind_eq_of_eq_error (silent_of_error hhost)) (hframes ▸ hC)
      (.host hcause hactive hsession)
  | ok hostEnd r =>
    obtain ⟨hactive, hsession⟩ := hends.onOk hhost
    refine .of_move ((bind_eq_of_eq_ok (silent_of_ok hhost)).trans
      (bind_eq_of_eq_ok rfl))
      (.answer outside hactive hsession) ?_
    refine Journey.bind (.silent (calm_finishHost function name hostEnd) hC hframes)
      fun _ t₁ _ h₁ => ?_
    exact journey_leave outside h₁

theorem journey_body
    (hC : ∀ calls, f :: rest <:+ calls → C calls) (outside arity : Nat)
    (params : List Val) (hframes : pending t.scenes = f :: rest) :
    Journey setting Hosts C (fun _ => True) (0, t) outside rest
      (silent (activate f arity params) >>= fun outer =>
        tellSequence fuel setting f.module 0 f.body >>= fun signal =>
        silent (leaveBody f.name arity outer signal) >>= fun _ =>
          tellLeave setting outside) := by
  have hinside := hC _ List.suffix_rfl
  refine Journey.bind (.silent (calm_activate f arity params) hinside hframes)
    fun outer t₁ _ h₁ => ?_
  refine Journey.bind ((ih.sequence f.module 0 f.body t₁ f rest h₁ (.whole f)).mono hC)
    fun signal t₂ _ h₂ => ?_
  refine Journey.bind (.silent (calm_leaveBody f.name arity outer signal) hinside h₂)
    fun _ t₃ _ h₃ => ?_
  exact journey_leave outside h₃

theorem call_succ
    (hhosts : ∀ program s, Ends (runHost fuel setting.context program) s
      (fun _ => Hosts s) fun _ => Hosts s)
    (position : Nat) (function : UInt32) (t : Telling) :
    Journey setting Hosts (InCall function t) (fun _ => True) (position, t) position
      (pending t.scenes)
      (tellCall (fuel + 1) setting position function) := by
  rw [tellCall]
  cases hf : t.run.session.store.functions[function.toNat]? with
  | none =>
      exact .of_halt (bind_eq_of_eq_error (tellSummon_of_none hf)) (.inl rfl)
        (.calm (.refl _) trivial)
  | some f =>
    have hinside (calls : List FuncInst) (h : f :: pending t.scenes <:+ calls) :
        InCall function t calls :=
      .inr ⟨f, hf, h⟩
    refine Journey.bind (journey_summon position hf) fun summons t₁ hof h₁ => ?_
    cases summons with
    | host name program =>
        exact journey_host hhosts (hinside _ List.suffix_rfl) position function
          name program h₁
    | body g arity params =>
      obtain ⟨-, rfl⟩ := hof
      exact ih.journey_body hinside position arity params h₁

end Travels

/-- Told code makes moves, whatever is known of host programs within the bound. -/
theorem travels
    (hhosts : ∀ n < fuel, ∀ program s,
      Ends (runHost n setting.context program) s (fun _ => Hosts s) fun _ => Hosts s) :
        Travels setting Hosts fuel := by
  induction fuel with
  | zero =>
    exact {
      instruction := fun _ _ _ _ _ _ hframes _ =>
        .of_halt rfl (hframes ▸ List.suffix_rfl) .exhausted
      sequence := fun _ _ _ _ _ _ hframes _ =>
        .of_halt rfl (hframes ▸ List.suffix_rfl) .exhausted
      block := fun _ _ _ _ _ _ _ _ _ hframes _ =>
        .of_halt rfl (hframes ▸ List.suffix_rfl) .exhausted
      call := fun _ _ _ => .of_halt rfl (.inl rfl) .exhausted }
  | succ fuel ih =>
    have hsmaller := ih fun n hn => hhosts n (Nat.lt_succ_of_lt hn)
    exact {
      instruction := hsmaller.instruction_succ
      sequence := hsmaller.sequence_succ
      block := hsmaller.block_succ
      call := hsmaller.call_succ (hhosts fuel (Nat.lt_succ_self fuel)) }

end Engine
end WebAssembly
