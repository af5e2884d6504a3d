import DeriveKit.Code.Quoter
import DeriveKit.Proofs.Scope

/-!
# DeriveKit.Proofs.Hygiene

Quoted expressions keep the meaning they had where the user wrote them.

* `Quoter.Holds` — what a quoter holds after quoting a list of expressions. Quoting one more keeps
  it (`Holds.quote`), and so does quoting any number (`Holds.quoteAll`), which also says what the
  calls handed out are;
* `lookup_thunkFrames` — among the thunks, a name is given by the thunk that it was made for and by
  no other one;
* `quoting_is_hygienic` — the result: what is quoted stands in the scope of the whole, and its call
  inside the generated code finds its own thunk.
-/

namespace DeriveKit

namespace Quoter

variable {runtime module : QualName} {es : List (Expr Payload)} {e : Expr Payload} {q : Quoter}

/-! ## names of thunks -/

/-- No two thunks have the same name. -/
theorem thunkName_injective : Function.Injective thunkName := by
  intro m n h
  have htoList : "__".toList ++ (toString m).toList = "__".toList ++ (toString n).toList := by
    rw [← String.toList_append, ← String.toList_append]
    exact congrArg String.toList h
  have hdigits := List.append_cancel_left htoList
  rw [Nat.toString_eq_ofList_toDigits, Nat.toString_eq_ofList_toDigits, String.toList_ofList,
    String.toList_ofList] at hdigits
  rw [← Nat.ofDigitChars_ten_toDigits (n := m), hdigits, Nat.ofDigitChars_ten_toDigits]

/-- The name of a thunk is not qualified, so it is looked up as a variable. -/
theorem dot_not_mem_thunkName (n : Nat) : '.' ∉ (thunkName n).toList := by
  intro h
  rw [thunkName, String.toList_append, List.mem_append] at h
  obtain h | h := h
  · exact absurd h (by decide)
  · rw [Nat.toString_eq_ofList_toDigits, String.toList_ofList] at h
    exact absurd (Nat.isDigit_of_mem_toDigits (by decide) (by decide) h) (by decide)

/-- The name in a call is not split. -/
theorem call_thunkName (n : Nat) (span : Span) :
    call (thunkName n) span = .apply (.ident (.simple (thunkName n)) span) [.unit span] span := by
  rw [call, Expr.var, QualName.ofDotted_of_dot_not_mem (dot_not_mem_thunkName n)]

/-! ## what a quoter holds -/

/-- What a quoter holds after quoting `es`: it counts them, and has the thunks of all of them in
order, each under the name made from its number. -/
structure Holds (runtime : QualName) (es : List (Expr Payload)) (q : Quoter) : Prop where
  runtime_eq : q.runtime = runtime
  next_eq : q.next = es.length
  quoted_eq : q.quoted = es.mapIdx fun i e => (thunkName i, thunk e)

/-- A new quoter holds nothing. -/
theorem Holds.empty (runtime : QualName) : Holds runtime [] (empty runtime) := ⟨rfl, rfl, rfl⟩

/-- Quoting one more expression adds one thunk (`Quoter.quote`). -/
theorem Holds.quote (h : Holds runtime es q) (e : Expr Payload) :
    Holds runtime (es ++ [e]) (q.quote e).1 where
  runtime_eq := h.runtime_eq
  next_eq := by rw [Quoter.quote, h.next_eq, List.length_append, List.length_singleton]
  quoted_eq := by rw [Quoter.quote, h.quoted_eq, h.next_eq, List.mapIdx_concat]

/-- `Quoter.quote` hands out the call of the thunk that it adds. -/
theorem Holds.quote_snd (h : Holds runtime es q) (e : Expr Payload) :
    (q.quote e).2 = call (thunkName es.length) e.span := by
  rw [Quoter.quote, h.next_eq]

/-- Quoting several adds one thunk for each, in order. -/
theorem Holds.quoteAll (h : Holds runtime es q) (more : List (Expr Payload)) :
    Holds runtime (es ++ more) (q.quoteAll more).1 ∧
      (q.quoteAll more).2 = more.mapIdx fun i e => call (thunkName (es.length + i)) e.span := by
  induction more generalizing es q with
  | nil => exact ⟨by rwa [List.append_nil], rfl⟩
  | cons e more ih =>
      obtain ⟨hholds, hcalls⟩ := ih (h.quote e)
      rw [List.append_assoc, List.singleton_append] at hholds
      refine ⟨hholds, ?_⟩
      rw [List.mapIdx_cons, Quoter.quoteAll]
      refine congr (congrArg _ (h.quote_snd e)) (hcalls.trans ?_)
      rw [List.mapIdx_eq_mapIdx_iff, List.length_append, List.length_singleton]
      intro i _
      rw [Nat.add_assoc, Nat.add_comm 1]

/-! ## the generated code -/

/-- The bindings of the quoted expressions, in generated code at the given place. -/
def bindings (span : Span) (es : List (Expr Payload)) : List (Binding Payload) :=
  es.mapIdx fun i e => binding span (thunkName i) (thunk e)

/-- The frames of the thunks, one for each quoted expression. -/
def thunkFrames (span : Span) (es : List (Expr Payload)) : Scope Payload :=
  es.mapIdx fun i e => .bound (thunkName i) (binding span (thunkName i) (thunk e))

/-- Code is wrapped in the thunks and in the opening of the module; without thunks only in the
latter. -/
theorem Holds.wrapIn_eq (h : Holds runtime es q) (module : QualName) (body : Expr Payload) :
    q.wrapIn module body =
      if es.isEmpty then opened module body
      else .letIn .nonrecursive (bindings body.span es) (opened module body) body.span := by
  have hbindings : q.quoted.map (fun entry => binding body.span entry.1 entry.2) =
      bindings body.span es := by
    rw [h.quoted_eq]
    exact List.ext_getElem (by simp [bindings]) (by simp [bindings])
  have hempty : q.quoted.isEmpty = es.isEmpty := by
    rw [h.quoted_eq]
    cases es with
    | nil => rfl
    | cons e es => rw [List.mapIdx_cons]; rfl
  rw [← hbindings, ← hempty]
  rfl

/-- The binders around the code are the thunks, and the first is the outermost. -/
theorem frames_bindings (span : Span) (es : List (Expr Payload)) :
    Binding.frames (bindings span es) = thunkFrames span es := by
  suffices h : ∀ f : Nat → String,
      Binding.frames (es.mapIdx fun i e => binding span (f i) (thunk e)) =
        es.mapIdx fun i e => .bound (f i) (binding span (f i) (thunk e)) from h thunkName
  intro f
  induction es generalizing f with
  | nil => rfl
  | cons e es ih =>
      rw [List.mapIdx_cons, List.mapIdx_cons, ← ih]
      rfl

/-- Among the thunks, the name of a quoted expression is given by its own thunk, whatever there is
further out. -/
theorem lookup_thunkFrames (exports : QualName → String → Bool) (span : Span)
    (outer : Scope Payload) {i : Nat} (h : i < es.length) :
    Scope.lookup exports (thunkFrames span es ++ outer) (thunkName i) =
      some (.bound (thunkName i) (binding span (thunkName i) (thunk es[i]))) := by
  have hlength : (thunkFrames span es).length = es.length := List.length_mapIdx
  have hframe : ∀ (j : Nat) (hj : j < (thunkFrames span es).length), (thunkFrames span es)[j] =
      .bound (thunkName j) (binding span (thunkName j) (thunk (es.get ⟨j, hlength ▸ hj⟩))) :=
    fun j hj => List.getElem_mapIdx
  rw [Scope.lookup, List.find?_append, Option.or_eq_some_iff]
  refine .inl (List.find?_eq_some_iff_getElem.2 ⟨BEq.rfl, i, hlength ▸ h, hframe i _, ?_⟩)
  intro j hj
  rw [hframe, Frame.gives, Bool.not_eq_true', beq_eq_false_iff_ne]
  exact fun hname => absurd (thunkName_injective hname) (Nat.ne_of_lt hj)

/-- Quoted expressions stand in the scope of the whole. -/
theorem place?_quoted (outer : Scope Payload) (rest : Expr Payload) (span : Span) {i : Nat}
    (h : i < es.length) :
    (Expr.letIn .nonrecursive (bindings span es) rest span).place? outer [i, 0] =
      some (outer, es[i]) := by
  have hpart : (ExprShape.letIn .nonrecursive (bindings span es) rest).scopedParts[i]? =
      some ([], thunk es[i]) := by
    rw [ExprShape.scopedParts, List.getElem?_append_left (by simpa [bindings] using h)]
    simp [bindings, binding, Binding.bare, h]
  rw [Expr.place?]
  simp only [Expr.letIn, Expr.bare, hpart]
  rfl

/-- The generated code stands inside the opening, and the opening among the thunks. -/
theorem place?_body (outer : Scope Payload) (body : Expr Payload) (span : Span) :
    (Expr.letIn .nonrecursive (bindings span es) (opened module body) span).place? outer
      [es.length, 0] = some (.opened module :: (thunkFrames span es ++ outer), body) := by
  have hpart : (ExprShape.letIn .nonrecursive (bindings span es) (opened module body)).scopedParts[
      es.length]? = some (thunkFrames span es, opened module body) := by
    rw [ExprShape.scopedParts, List.getElem?_append_right (by simp [bindings]), frames_bindings]
    simp [bindings]
  rw [Expr.place?]
  simp only [Expr.letIn, Expr.bare, hpart]
  rfl

/-! ## the result -/

/-- The expression opens `module`, whatever names that hides, and nothing else, around `body`. -/
def IsOpening (module : QualName) (body e : Expr Payload) : Prop :=
  ∃ decl : OpenDecl Payload,
    decl.module.value = module ∧ decl.override = true ∧ e.shape = .openIn decl body

/-- The module is opened inside of them, so no thunk is evaluated in its scope. -/
theorem isOpening_opened (module : QualName) (body : Expr Payload) :
    IsOpening module body (opened module body) :=
  ⟨_, rfl, rfl, rfl⟩

/-- **Quoting is hygienic.** If expressions are quoted one after the other, the calls handed out
apply names that all differ to the unit value. Generated code is put inside the opening of a module,
and this inside one group of bindings, of each name to the function of the unit value with the
expression as its body, unless nothing was quoted. So in any surroundings a quoted expression stands
in the scope that the whole stands in; and the name in its call, where the generated code stands, is
given by its own binding, if the module that is opened has no such name. -/
theorem quoting_is_hygienic {calls : List (Expr Payload)}
    (h : (empty runtime).quoteAll es = (q, calls)) (module : QualName) (body : Expr Payload) :
    ∃ (name : Nat → String) (bindings : List (Binding Payload)),
      Function.Injective name ∧
      bindings = es.mapIdx (fun i e => {
        pattern := ⟨.var ⟨name i, e.span⟩, e.span, []⟩
        expr := ⟨.lambda .positional none ⟨.construct ⟨⟨[], "()"⟩, e.span⟩ none, e.span, []⟩ e,
          e.span, []⟩
        attributes := []
        span := body.span }) ∧
      calls = es.mapIdx (fun i e =>
        ⟨.apply ⟨.ident ⟨⟨[], name i⟩, e.span⟩, e.span, []⟩
          [(.positional, ⟨.construct ⟨⟨[], "()"⟩, e.span⟩ none, e.span, []⟩)], e.span, []⟩) ∧
      q.wrap body = q.wrapIn runtime body ∧
      (∃ inside, IsOpening module body inside ∧
        q.wrapIn module body =
          if es.isEmpty then inside
          else ⟨.letIn .nonrecursive bindings inside, body.span, []⟩) ∧
      ∀ (outer : Scope Payload) (i : Nat) (hi : i < es.length),
        (q.wrapIn module body).place? outer [i, 0] = some (outer, es[i]) ∧
        ∃ scope, (q.wrapIn module body).place? outer [es.length, 0] = some (scope, body) ∧
          ∀ exports : QualName → String → Bool, exports module (name i) = false →
            ∃ binding, bindings[i]? = some binding ∧
              scope.lookup exports (name i) = some (.bound (name i) binding) := by
  obtain ⟨hholds, hcalls⟩ := (Holds.empty runtime).quoteAll es
  rw [h, List.nil_append] at hholds
  rw [h] at hcalls
  have hwrapped := hholds.wrapIn_eq module body
  refine ⟨thunkName, bindings body.span es, thunkName_injective, rfl, hcalls.trans ?_,
    congrArg (q.wrapIn · body) hholds.runtime_eq, ⟨_, isOpening_opened module body, hwrapped⟩, ?_⟩
  · rw [List.mapIdx_eq_mapIdx_iff]
    intro i _
    rw [List.length_nil, Nat.zero_add, call_thunkName]
    rfl
  intro outer i hi
  rw [if_neg (by simpa using List.ne_nil_of_length_pos (Nat.zero_lt_of_lt hi))] at hwrapped
  rw [hwrapped]
  refine ⟨place?_quoted outer _ _ hi, _, place?_body outer body _, fun exports hexports => ?_⟩
  refine ⟨_, List.getElem?_eq_getElem (by rwa [bindings, List.length_mapIdx]), ?_⟩
  rw [Scope.lookup, List.find?_cons_of_neg
    (by rw [Frame.gives, hexports]; exact Bool.false_ne_true)]
  exact (lookup_thunkFrames exports body.span outer hi).trans (by simp [bindings])

/-- Two expressions that are each called what the thunk of the other one is. -/
def crossed : List (Expr Payload) := [.var "__1" ⟨1, 4⟩, .var "__0" ⟨5, 8⟩]

/-- Two quoted expressions whose names cross: each call finds its own thunk, and neither sees the
module that is opened. -/
theorem quoting_is_hygienic_crossed :
    ∃ (q : Quoter) (calls : List (Expr Payload)) (name : Nat → String)
      (bindings : List (Binding Payload)) (scope : Scope Payload),
      (empty defaultRuntime).quoteAll crossed = (q, calls) ∧
      calls.map (·.shape) =
        [.apply ⟨.ident ⟨⟨[], name 0⟩, ⟨1, 4⟩⟩, ⟨1, 4⟩, []⟩
            [(.positional, ⟨.construct ⟨⟨[], "()"⟩, ⟨1, 4⟩⟩ none, ⟨1, 4⟩, []⟩)],
          .apply ⟨.ident ⟨⟨[], name 1⟩, ⟨5, 8⟩⟩, ⟨5, 8⟩, []⟩
            [(.positional, ⟨.construct ⟨⟨[], "()"⟩, ⟨5, 8⟩⟩ none, ⟨5, 8⟩, []⟩)]] ∧
      (q.wrap (.tuple calls ⟨9, 9⟩)).place? [] [0, 0] = some ([], .var "__1" ⟨1, 4⟩) ∧
      (q.wrap (.tuple calls ⟨9, 9⟩)).place? [] [2, 0] = some (scope, .tuple calls ⟨9, 9⟩) ∧
      ∃ binding, bindings[1]? = some binding ∧
        scope.lookup (fun _ _ => false) (name 1) = some (.bound (name 1) binding) := by
  have hquoted : (empty defaultRuntime).quoteAll crossed = (_, _) := rfl
  obtain ⟨name, bindings, -, -, hcalls, -, -, hplaces⟩ :=
    quoting_is_hygienic hquoted defaultRuntime (.tuple _ ⟨9, 9⟩)
  obtain ⟨-, scope, hbody, hlookup⟩ := hplaces [] 1 (by decide)
  exact ⟨_, _, name, bindings, scope, rfl, congrArg (List.map (·.shape)) hcalls,
    (hplaces [] 0 (by decide)).1, hbody, hlookup (fun _ _ => false) rfl⟩

end Quoter

end DeriveKit
