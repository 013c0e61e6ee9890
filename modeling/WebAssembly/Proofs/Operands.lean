import Mathlib.Data.List.Induction
import WebAssembly.Engine.Interpreter
import WebAssembly.Proofs.Outcome
import WebAssembly.Proofs.StoreTyping

/-!
# Operands on the stack

How the operands that an instruction finds are described: the stack carries values of
given types above a rest, and the rest can be unwound to every label and to the
activation that the context of the code lists.  Each step of a run that takes operands
is then determined.
-/

namespace WebAssembly

namespace Stack

theorem pushAll_append (stack : Stack) (first second : List Val) :
    stack.pushAll (first ++ second) = (stack.pushAll first).pushAll second := by
  induction first generalizing stack with
  | nil => rfl
  | cons v rest ih => exact ih (.value v :: stack)

theorem pushAll_concat (stack : Stack) (values : List Val) (v : Val) :
    stack.pushAll (values ++ [v]) = .value v :: stack.pushAll values :=
  pushAll_append stack values [v]

theorem popOnto_pushAll (stack : Stack) (values acc : List Val) :
    popOnto acc values.length (stack.pushAll values) = .ok (values ++ acc, stack) := by
  induction values using List.reverseRecOn generalizing acc with
  | nil => rfl
  | append_singleton values v ih =>
      rw [pushAll_concat, List.length_append, List.length_singleton, popOnto, ih]
      simp

theorem popMany_pushAll (stack : Stack) (values : List Val) :
    popMany values.length (stack.pushAll values) = .ok (values, stack) := by
  rw [popMany, popOnto_pushAll, List.append_nil]

@[simp] theorem findLabel_pushAll (stack : Stack) (values : List Val) (target : UInt32)
    (depth : Nat) :
    findLabel target depth (stack.pushAll values) = findLabel target depth stack := by
  induction values generalizing stack with
  | nil => rfl
  | cons v rest ih =>
      rw [pushAll, ih]
      cases depth <;> rfl

@[simp] theorem findActivation_pushAll (stack : Stack) (values : List Val) :
    findActivation (stack.pushAll values) = findActivation stack := by
  induction values generalizing stack with
  | nil => rfl
  | cons v rest ih => exact ih (.value v :: stack)

/-- The stack consists of operands of the given types above the rest. -/
def Carries (stack rest : Stack) (types : List ValueType) : Prop :=
  ∃ values : List Val, values.map Val.type = types ∧ stack = rest.pushAll values

namespace Carries

variable {stack rest : Stack} {types first second : List ValueType} {type : ValueType}

theorem nil_iff : Carries stack rest [] ↔ stack = rest := by
  constructor
  · rintro ⟨values, hvalues, rfl⟩
    rw [List.map_eq_nil_iff.mp hvalues]
    rfl
  · rintro rfl
    exact ⟨[], rfl, rfl⟩

theorem append_iff :
    Carries stack rest (first ++ second) ↔ ∃ middle, Carries middle rest first ∧
      Carries stack middle second := by
  constructor
  · rintro ⟨values, hvalues, rfl⟩
    obtain ⟨left, right, rfl, hleft, hright⟩ := List.map_eq_append_iff.mp hvalues
    exact ⟨rest.pushAll left, ⟨left, hleft, rfl⟩, right, hright,
      pushAll_append rest left right⟩
  · rintro ⟨_, ⟨left, hleft, rfl⟩, right, hright, rfl⟩
    exact ⟨left ++ right, by rw [List.map_append, hleft,
      hright], (pushAll_append rest left right).symm⟩

theorem singleton_iff :
    Carries stack rest [type] ↔ ∃ v : Val, v.type = type ∧
      stack = .value v :: rest := by
  constructor
  · rintro ⟨values, hvalues, rfl⟩
    obtain ⟨v, rfl, hv⟩ := List.map_eq_singleton_iff.mp hvalues
    exact ⟨v, hv, rfl⟩
  · rintro ⟨v, hv, rfl⟩
    exact ⟨[v], by rw [List.map_singleton, hv], rfl⟩

theorem concat_iff :
    Carries stack rest (types ++ [type]) ↔
      ∃ (v : Val) (below : Stack), v.type = type ∧ stack = .value v :: below ∧
        Carries below rest types := by
  rw [append_iff]
  constructor
  · rintro ⟨below, hbelow, hstack⟩
    obtain ⟨v, hv, rfl⟩ := singleton_iff.mp hstack
    exact ⟨v, below, hv, rfl, hbelow⟩
  · rintro ⟨v, below, hv, rfl, hbelow⟩
    exact ⟨below, hbelow, singleton_iff.mpr ⟨v, hv, rfl⟩⟩

theorem pair_iff
    {type' : ValueType} :
    Carries stack rest [type, type'] ↔
      ∃ v w : Val, v.type = type ∧ w.type = type' ∧
        stack = .value w :: .value v :: rest := by
  rw [show [type, type'] = [type] ++ [type'] from rfl, concat_iff]
  constructor
  · rintro ⟨w, below, hw, rfl, hbelow⟩
    obtain ⟨v, hv, rfl⟩ := singleton_iff.mp hbelow
    exact ⟨v, w, hv, hw, rfl⟩
  · rintro ⟨v, w, hv, hw, rfl⟩
    exact ⟨w, .value v :: rest, hw, rfl, singleton_iff.mpr ⟨v, hv, rfl⟩⟩

end Carries

/-- The stack below some code can be unwound to every label and to the activation that
the context lists. -/
structure Unwinds (c : Context) (rest : Stack) : Prop where
  label : ∀ (depth : Nat) types, c.labels[depth]? = some types →
    ∃ below, ∀ target, findLabel target depth rest = .ok (types.length, below)
  activation : ∃ below, findActivation rest = some (c.returns.length, below)

theorem Unwinds.pushAll
    {c : Context} {rest : Stack} (h : rest.Unwinds c) (values : List Val) :
    (rest.pushAll values).Unwinds c where
  label := by simpa using h.label
  activation := by simpa using h.activation

/-- The stack on which the body of a function starts. -/
theorem unwinds_frame (c : Context) (type : FuncType) (locals : List ValueType)
    (rest : Stack) :
    Unwinds (c.inFunction type locals) (.label type.results.length ::
      .activation type.results.length :: rest) where
  label := by
    intro depth types htypes
    cases depth with
    | zero =>
        obtain rfl := Option.some.inj htypes
        exact ⟨_, fun _ => rfl⟩
    | succ depth => cases htypes
  activation := ⟨rest, rfl⟩

theorem Unwinds.label_cons
    {c : Context} {rest : Stack} {types : List ValueType} (h : rest.Unwinds c) :
    Unwinds (c.inBlock types) (.label types.length :: rest) where
  label := by
    intro depth types' htypes'
    cases depth with
    | zero =>
        obtain rfl : types = types' := Option.some.inj htypes'
        exact ⟨rest, fun _ => rfl⟩
    | succ depth => exact h.label depth types' htypes'
  activation := h.activation

/-- Where the operands stand after code that began above a rest, according to how it
ended. -/
def Follows (c : Context) (rest : Stack) (left : List ValueType)
    (stack : Stack) : Signal → Prop
  | .next => stack.Carries rest left
  | .branch depth => ∃ types below, c.labels[depth]? = some types ∧
      (∀ target, findLabel target depth rest = .ok (types.length, below)) ∧
        stack.Carries below types
  | .ret => ∃ below, findActivation rest = some (c.returns.length, below) ∧
      stack.Carries (.activation c.returns.length :: below) c.returns

theorem Carries.popMany_eq_ok
    {stack rest : Stack} {types : List ValueType} (h : stack.Carries rest types) :
    ∃ values : List Val, values.map Val.type = types ∧ stack = rest.pushAll values ∧
      popMany types.length stack = .ok (values, rest) := by
  obtain ⟨values, rfl, rfl⟩ := h
  exact ⟨values, rfl, rfl, by rw [List.length_map, popMany_pushAll]⟩

theorem Unwinds.branch_eq_ok
    {c : Context} {stack rest : Stack} {label : UInt32}
    {taken types left : List ValueType} (h : rest.Unwinds c)
    (hlabel : c.labels[label.toNat]? = some types)
    (hstack : stack.Carries rest (taken ++ types)) :
    ∃ stack', branch label stack = .ok stack' ∧
      Follows c rest left stack' (.branch label.toNat) := by
  obtain ⟨below, hbelow⟩ := h.label label.toNat types hlabel
  obtain ⟨_, ⟨others, -, rfl⟩, hvalues⟩ := Carries.append_iff.mp hstack
  obtain ⟨values, htypes, rfl, hpop⟩ := hvalues.popMany_eq_ok
  refine ⟨below.pushAll values, ?_, types, below, hlabel, hbelow, values, htypes, rfl⟩
  simp only [branch, findLabel_pushAll, hbelow, hpop]

theorem Unwinds.ret_eq_ok
    {c : Context} {stack rest : Stack} {taken left : List ValueType}
    (h : rest.Unwinds c) (hstack : stack.Carries rest (taken ++ c.returns)) :
    ∃ stack', ret stack = .ok stack' ∧ Follows c rest left stack' .ret := by
  obtain ⟨below, hbelow⟩ := h.activation
  obtain ⟨_, ⟨others, -, rfl⟩, hvalues⟩ := Carries.append_iff.mp hstack
  obtain ⟨values, htypes, rfl, hpop⟩ := hvalues.popMany_eq_ok
  refine ⟨Stack.pushAll (.activation c.returns.length :: below) values, ?_, below,
    hbelow, values, htypes, rfl⟩
  simp only [ret, findActivation_pushAll, hbelow, hpop]

theorem Carries.leave_eq_ok
    {stack rest below : Stack} {results : List ValueType} {arity : Nat}
    (h : stack.Carries rest results) (hrest : findActivation rest = some (arity, below))
    (function : String) :
    ∃ stack', leave function results.length stack = .ok stack' ∧
      stack'.Carries below results := by
  obtain ⟨values, htypes, rfl, hpop⟩ := h.popMany_eq_ok
  refine ⟨below.pushAll values, ?_, values, htypes, rfl⟩
  simp only [leave, hpop, hrest]

end Stack

namespace Exec

variable {α β : Type} {r : Run} {Q : β → Run → Prop} {E : Abort → Run → Prop}

theorem ends_present_bind
    {entry : Option α} {a : α} {f : α → Exec β} (hentry : entry = some a)
    (h : Ends (f a) r Q E) :
    Ends (present entry >>= f) r Q E := by
  subst hentry
  exact h

theorem ends_access_bind
    {result : Except AccessError α} {a : α} {f : α → Exec β} (hresult : result = .ok a)
    (h : Ends (f a) r Q E) :
    Ends (access result >>= f) r Q E := by
  subst hresult
  exact h

theorem ends_pop_bind
    {v : Val} {below : Stack} {f : Val → Exec β} (hstack : r.stack = .value v :: below)
    (h : Ends (f v) { r with stack := below } Q E) : Ends (pop >>= f) r Q E := by
  refine Ends.bind_of_eq_ok ?_ h
  unfold pop take
  rw [hstack]
  rfl

theorem ends_popTyped_bind
    {type : ValueType} {v : Val} {below : Stack} {f : Val → Exec β}
    (hstack : r.stack = .value v :: below) (htype : v.type = type)
    (h : Ends (f v) { r with stack := below } Q E) :
    Ends (popTyped type >>= f) r Q E := by
  refine Ends.bind_of_eq_ok ?_ h
  unfold popTyped take
  rw [hstack, Stack.popTyped, Stack.pop]
  simp only [htype, if_true]

theorem ends_popU32_bind
    {v : Val} {below : Stack} {f : UInt32 → Exec β}
    (hstack : r.stack = .value v :: below) (htype : v.type = .i32)
    (h : Ends (f v.u32) { r with stack := below } Q E) : Ends (popU32 >>= f) r Q E := by
  unfold popU32
  rw [bind_assoc]
  exact ends_popTyped_bind hstack htype h

theorem ends_popMany_bind
    {count : Nat} {values : List Val} {below : Stack} {f : List Val → Exec β}
    (hpop : Stack.popMany count r.stack = .ok (values, below))
    (h : Ends (f values) { r with stack := below } Q E) :
    Ends (popMany count >>= f) r Q E := by
  refine Ends.bind_of_eq_ok ?_ h
  unfold popMany take
  rw [hpop]

theorem ends_rearrange_bind
    {change : Stack → Except Bug Stack} {stack : Stack} {f : Unit → Exec β}
    (hchange : change r.stack = .ok stack) (h : Ends (f ()) { r with stack } Q E) :
    Ends (rearrange change >>= f) r Q E := by
  refine Ends.bind_of_eq_ok ?_ h
  unfold rearrange
  rw [hchange]

end Exec
end WebAssembly
