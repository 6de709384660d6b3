import ApiDocs.Proofs.Source.Entry

/-!
# Parentheses around a value

A variable is marked as a function, and its type is told, from what is left of its initializer when
the parentheses around it are taken away.  The two readings take them away on their own.  What is
left is said here by a relation on nodes, and both readings are proved to come to it: parentheses
never change the type of an expression, and a variable without an annotation that is marked as a
function has the type of the function that is left.

The one reading goes from parentheses to parentheses.  The other one makes a call for each pair of
them, and each call takes some of the room that there is for calls.  So it is told as well what
parentheses take of the room; where an expression runs out of it, it has no type.
-/

namespace ApiDocs

namespace Node

/--
What is left of an expression without the parentheses around it, and how many pairs are taken away.
Comments beside the expression inside the parentheses do not count, and parentheses with nothing
else in them stay.
-/
inductive Unwraps : Nat → Node → Node → Prop where
  | bare {node : Node} (other : node.kind ≠ "parenthesized_expression") : Unwraps 0 node node
  | empty {node : Node} (wraps : node.kind = "parenthesized_expression")
      (nothing : node.firstPart? = none) : Unwraps 0 node node
  | inside {count : Nat} {node part inner : Node} (wraps : node.kind = "parenthesized_expression")
      (found : node.firstPart? = some part) (left : Unwraps count part inner) :
      Unwraps (count + 1) node inner

variable {count : Nat} {node part inner other : Node}

theorem sizeOf_lt_of_firstPart? (found : node.firstPart? = some part) :
    sizeOf part < sizeOf node := by
  have member : part ∈ node.children := List.mem_of_find?_eq_some found
  cases node with
  | mk kind named start stop field children =>
      have smaller : sizeOf part < sizeOf children := List.sizeOf_lt_of_mem member
      rw [mk.sizeOf_spec]
      omega

theorem unwrappedFirst?_eq (nodes : List Node) :
    unwrappedFirst? nodes = (nodes.find? isPart).map unwrapped := by
  induction nodes with
  | nil => rw [unwrappedFirst?, List.find?_nil, Option.map_none]
  | cons node rest ih =>
      rw [unwrappedFirst?, List.find?_cons]
      cases node.isPart with
      | true => rfl
      | false => exact ih

theorem unwrapped_eq (node : Node) :
    node.unwrapped =
      if node.kind = "parenthesized_expression" then
        (node.firstPart?.map unwrapped).getD node
      else node := by
  cases node with
  | mk kind named start stop field children =>
      rw [unwrapped, unwrappedFirst?_eq]
      rfl

/-- Every expression without its parentheses is what the relation says. -/
theorem exists_unwraps (node : Node) : ∃ count, Unwraps count node node.unwrapped := by
  rw [unwrapped_eq]
  split
  · rename_i wraps
    cases found : node.firstPart? with
    | none => exact ⟨0, .empty wraps found⟩
    | some part =>
        obtain ⟨count, left⟩ := exists_unwraps part
        exact ⟨count + 1, .inside wraps found left⟩
  · rename_i other
    exact ⟨0, .bare other⟩
termination_by sizeOf node
decreasing_by exact sizeOf_lt_of_firstPart? found

theorem Unwraps.eq_unwrapped (unwraps : Unwraps count node inner) : inner = node.unwrapped := by
  induction unwraps with
  | bare other => rw [unwrapped_eq, if_neg other]
  | empty wraps nothing =>
      rw [unwrapped_eq, if_pos wraps, nothing]
      rfl
  | inside wraps found _ ih =>
      rw [unwrapped_eq, if_pos wraps, found]
      exact ih

end Node

namespace TypeText

variable {source : SourceBytes} {scope : Scope} {fixed : Bool} {room more count : Nat}
variable {node inner : Node}

/-! ## What parentheses take of the room -/

theorem inferFirst_eq (source : SourceBytes) (scope : Scope) (room : Nat) (fixed : Bool)
    (nodes : List Node) :
    inferFirst source scope room fixed nodes =
      (nodes.find? Node.isPart).elim (.ok unknown) (inferWithin source scope room fixed) := by
  induction nodes with
  | nil => rw [inferFirst, List.find?_nil, Option.elim_none]
  | cons node rest ih =>
      rw [inferFirst, List.find?_cons]
      cases node.isPart with
      | true => rfl
      | false => exact ih

theorem inferWithin_zero (source : SourceBytes) (scope : Scope) (fixed : Bool) (node : Node) :
    inferWithin source scope 0 fixed node = .error .tooDeep := by
  rw [inferWithin]

/-- In parentheses, an expression keeps its type; without one nothing is known. -/
theorem inferWithin_of_parenthesized (wraps : node.kind = "parenthesized_expression") :
    inferWithin source scope (room + 1) fixed node =
      node.firstPart?.elim (.ok unknown) (inferWithin source scope room fixed) := by
  cases node with
  | mk kind named start stop field children =>
      subst wraps
      exact inferFirst_eq source scope room fixed children

/-- Parentheses take room for one call each, and do not change the type of an expression. -/
theorem inferWithin_of_unwraps (unwraps : Node.Unwraps count node inner) :
    inferWithin source scope (room + count) fixed node =
      inferWithin source scope room fixed inner := by
  induction unwraps with
  | bare | empty => rfl
  | inside wraps found _ ih =>
      rw [← Nat.add_assoc, inferWithin_of_parenthesized wraps, found]
      exact ih

/-- Without room for the parentheses there is no type. -/
theorem inferWithin_of_lt (unwraps : Node.Unwraps count node inner) (short : room < count) :
    inferWithin source scope room fixed node = .error .tooDeep := by
  induction unwraps generalizing room with
  | bare | empty => exact absurd short (Nat.not_lt_zero room)
  | inside wraps found _ ih =>
      cases room with
      | zero => exact inferWithin_zero source scope fixed _
      | succ room =>
          rw [inferWithin_of_parenthesized wraps, found]
          exact ih (Nat.lt_of_succ_lt_succ short)

/-! ## More room -/

/-- With more room there is the same result, unless there was none for want of room. -/
def Persists {α : Type} (result wider : Except Fault α) : Prop :=
  result ≠ .error .tooDeep → wider = result

namespace Persists

variable {α β : Type} {result wider : Except Fault α}

theorem refl (result : Except Fault α) : Persists result result :=
  fun _ => rfl

theorem of_tooDeep (wider : Except Fault α) : Persists (.error .tooDeep) wider :=
  fun enough => absurd rfl enough

theorem bind {next next' : α → Except Fault β} (first : Persists result wider)
    (second : ∀ value, Persists (next value) (next' value)) :
    Persists (result >>= next) (wider >>= next') := by
  intro enough
  cases result with
  | error fault =>
      rw [first]
      · rfl
      · rintro same
        cases same
        exact enough rfl
  | ok value =>
      rw [first (fun same => nomatch same)]
      exact second value enough

theorem map (function : α → β) (first : Persists result wider) :
    Persists (result.map function) (wider.map function) := by
  intro enough
  rw [first]
  rintro rfl
  exact enough rfl

end Persists

mutual

/-- The type of an expression that does not run out of room does not depend on the room. -/
theorem persists_inferWithin {room more : Nat} (le : room ≤ more) (fixed : Bool) :
    (node : Node) → Persists (inferWithin source scope room fixed node)
      (inferWithin source scope more fixed node)
  | .mk kind flag start stop field children => by
    obtain _ | room := room
    · rw [inferWithin_zero]
      exact .of_tooDeep _
    obtain ⟨more, rfl⟩ : ∃ lower, more = lower + 1 := ⟨more - 1, by omega⟩
    have le : room ≤ more := Nat.le_of_succ_le_succ le
    rw [inferWithin, inferWithin]
    cases ExpressionKind.ofName kind with
    | parenthesized | satisfaction => exact persists_inferFirst le fixed children
    | cast =>
        -- A cast to `const` asks for the type of the expression, another one only for the target.
        cases children.getLast? with
        | none => exact .refl _
        | some target =>
            dsimp only
            split
            · exact persists_inferFirst le true children
            · exact .refl _
    | array =>
        dsimp only
        split
        · exact .of_tooDeep _
        · rw [if_neg (by omega)]
          exact (persists_inferParts (Nat.sub_le_sub_right le 2) children).map _
    | object =>
        dsimp only
        split
        · exact .of_tooDeep _
        · rw [if_neg (by omega)]
          exact (persists_inferMembers (Nat.sub_le_sub_right le 1) children).map _
    | _ => exact .refl _

theorem persists_inferFirst {room more : Nat} (le : room ≤ more) (fixed : Bool) :
    (nodes : List Node) → Persists (inferFirst source scope room fixed nodes)
      (inferFirst source scope more fixed nodes)
  | [] => by
    rw [inferFirst, inferFirst]
    exact .refl _
  | node :: rest => by
    rw [inferFirst, inferFirst]
    split
    · exact persists_inferWithin le fixed node
    · exact persists_inferFirst le fixed rest

theorem persists_inferParts {room more : Nat} (le : room ≤ more) : (nodes : List Node) →
    Persists (inferParts source scope room nodes) (inferParts source scope more nodes)
  | [] => by
    rw [inferParts, inferParts]
    exact .refl _
  | node :: rest => by
    rw [inferParts, inferParts]
    split
    · exact .bind (persists_inferWithin le false node) fun _ =>
        .bind (persists_inferParts le rest) fun _ => .refl _
    · exact persists_inferParts le rest

theorem persists_inferMembers {room more : Nat} (le : room ≤ more) : (nodes : List Node) →
    Persists (inferMembers source scope room nodes) (inferMembers source scope more nodes)
  | [] => by
    rw [inferMembers, inferMembers]
    exact .refl _
  | node :: rest => by
    rw [inferMembers, inferMembers]
    split
    · split
      · split
        · refine .bind (.refl _) fun _ => .bind (persists_inferValue le node) fun _ =>
            .bind (persists_inferMembers le rest) fun members => .refl _
        · exact .refl _
      · exact .refl _
    · exact persists_inferMembers le rest

theorem persists_inferValue {room more : Nat} (le : room ≤ more) : (node : Node) →
    Persists (inferValue source scope room node) (inferValue source scope more node)
  | .mk kind flag start stop field children => by
    rw [inferValue, inferValue]
    exact persists_inferInField le "value" children

theorem persists_inferInField {room more : Nat} (le : room ≤ more) (field : String) :
    (nodes : List Node) → Persists (inferInField source scope room field nodes)
      (inferInField source scope more field nodes)
  | [] => by
    rw [inferInField, inferInField]
    exact .refl _
  | node :: rest => by
    rw [inferInField, inferInField]
    split
    · exact persists_inferWithin le false node
    · exact persists_inferInField le field rest

end

/-- An expression that does not run out of room has the type of what is in its parentheses. -/
theorem infer_eq_infer_unwrapped (enough : infer source scope fixed node ≠ .error .tooDeep) :
    infer source scope fixed node = infer source scope fixed node.unwrapped := by
  obtain ⟨count, unwraps⟩ := node.exists_unwraps
  have fits : count ≤ callLimit := by
    by_contra short
    exact enough (inferWithin_of_lt unwraps (Nat.lt_of_not_le short))
  have same : infer source scope fixed node =
      inferWithin source scope (callLimit - count) fixed node.unwrapped := by
    rw [← inferWithin_of_unwraps unwraps, Nat.sub_add_cancel fits, infer]
  rw [same] at enough ⊢
  exact (persists_inferWithin (Nat.sub_le callLimit count) fixed _ enough).symm

/-- A function has its own type, whatever is known of names and of the value. -/
theorem infer_of_isFunctionValue (isFunction : isFunctionValue node.kind = true) :
    infer source scope fixed node = function source node := by
  cases node with
  | mk kind named start stop field children =>
      have cases : kind ∈ ["arrow_function", "function_expression", "function",
          "generator_function"] := of_decide_eq_true isFunction
      simp only [List.mem_cons, List.not_mem_nil, or_false] at cases
      rcases cases with rfl | rfl | rfl | rfl <;> rfl

end TypeText

/-! ## The variables of a file -/

/--
A variable is marked as a function exactly if a function is left of its initializer without the
parentheses, and then it has the type of that function, unless an annotation gives it another one.
-/
structure VariableDeclaration.IsClassified (source : SourceBytes) (node : Node)
    (declaration : VariableDeclaration) : Prop where
  marked : declaration.isFunction = true ↔
    ∃ value count inner, node.at? "value" = some value ∧ Node.Unwraps count value inner ∧
      isFunctionValue inner.kind = true
  typed : declaration.isFunction = true → node.at? "type" = none →
    ∃ value, node.at? "value" = some value ∧
      TypeText.function source value.unwrapped = .ok declaration.typeText

/-- The variables of a file are classified by the nodes that declare them. -/
def SourceFile.IsClassified (source : SourceBytes) (root : Node) (file : SourceFile) : Prop :=
  ∃ entries, file.IsMadeOf entries ∧
    List.Forall₂ (fun site entry => (∃ scope, site.Gives source scope entry) ∧
      ∀ declaration, entry = .binding declaration → declaration.IsClassified source site.node)
      (Site.ofTree root) entries

theorem Reading.holdsFunction_iff {node : Node} :
    holdsFunction node = true ↔
      ∃ value, node.at? "value" = some value ∧ isFunctionValue value.unwrapped.kind = true := by
  rw [holdsFunction]
  cases node.at? "value" <;> simp

theorem Site.Gives.isClassified {source : SourceBytes} {scope : Scope} {site : Site}
    {declaration : VariableDeclaration} (given : site.Gives source scope (.binding declaration)) :
    declaration.IsClassified source site.node := by
  cases given with
  | binding _ _ _ typed =>
      refine ⟨Reading.holdsFunction_iff.trans ?_, fun isFunction noType => ?_⟩
      · constructor
        · rintro ⟨value, hasValue, holds⟩
          obtain ⟨count, unwraps⟩ := value.exists_unwraps
          exact ⟨value, count, _, hasValue, unwraps, holds⟩
        · rintro ⟨value, count, inner, hasValue, unwraps, holds⟩
          exact ⟨value, hasValue, unwraps.eq_unwrapped ▸ holds⟩
      · obtain ⟨value, hasValue, holds⟩ := Reading.holdsFunction_iff.mp isFunction
        refine ⟨value, hasValue, ?_⟩
        rw [declaredType, noType, hasValue] at typed
        dsimp only at typed
        rw [← TypeText.infer_of_isFunctionValue holds, ← TypeText.infer_eq_infer_unwrapped]
        · exact typed
        · rw [typed]
          exact fun same => nomatch same

/--
Parentheses around an expression take room for one call each, however many there are and whatever
the names stand for and whether or not the value can change, and do not change its type; without
room for them it has none.  So an expression that does not run out of room has the type of what is
left of it, and in a file that is read, a variable without an annotation that is marked as a
function has the type of the function inside the parentheses of its initializer.
-/
theorem SourceFile.parentheses_only_take_room (source : SourceBytes) :
    (∀ node : Node, ∃ count, Node.Unwraps count node node.unwrapped) ∧
    (∀ scope fixed node inner count, Node.Unwraps count node inner →
      (∀ room, TypeText.inferWithin source scope (room + count) fixed node =
        TypeText.inferWithin source scope room fixed inner) ∧
      ∀ room < count, TypeText.inferWithin source scope room fixed node = .error .tooDeep) ∧
    (∀ scope fixed node, TypeText.infer source scope fixed node ≠ .error .tooDeep →
      TypeText.infer source scope fixed node =
        TypeText.infer source scope fixed node.unwrapped) ∧
    ∀ path root file, ofTree path source root = .ok file → file.IsClassified source root := by
  refine ⟨Node.exists_unwraps, fun scope fixed node inner count unwraps => ?_,
    fun _ _ _ => TypeText.infer_eq_infer_unwrapped, fun path root file read => ?_⟩
  · exact ⟨fun room => TypeText.inferWithin_of_unwraps unwraps,
      fun room => TypeText.inferWithin_of_lt unwraps⟩
  · obtain ⟨-, entries, given, isMadeOf, -⟩ := exists_entries read
    refine ⟨entries, isMadeOf, given.forall₂.imp ?_⟩
    rintro site entry ⟨scope, gives⟩
    refine ⟨⟨scope, gives⟩, ?_⟩
    rintro declaration rfl
    exact gives.isClassified

/-- A function in two pairs of parentheses with a comment, and a name in parentheses. -/
def wrappedSource : SourceBytes :=
  Text.Utf8.encode "let f = ( /* a */ ((x) => 1)), g = (f)\n"

def wrappedFunction : Node :=
  .mk "parenthesized_expression" true 8 29 (some "value")
    [.mk "(" false 8 9 none [], .mk "comment" true 10 17 none [],
      .mk "parenthesized_expression" true 18 28 none
        [.mk "(" false 18 19 none [],
          .mk "arrow_function" true 19 27 none
            [.mk "formal_parameters" true 19 22 (some "parameters") [],
              .mk "=>" false 23 25 none [], .mk "number" true 26 27 (some "body") []],
          .mk ")" false 27 28 none []],
      .mk ")" false 28 29 none []]

def wrappedName : Node :=
  .mk "parenthesized_expression" true 35 38 (some "value")
    [.mk "(" false 35 36 none [], .mk "identifier" true 36 37 none [],
      .mk ")" false 37 38 none []]

def wrappedFile : Node :=
  .mk "program" true 0 39 none
    [.mk "lexical_declaration" true 0 38 none
        [.mk "let" false 0 3 (some "kind") [],
          .mk "variable_declarator" true 4 29 none
            [.mk "identifier" true 4 5 (some "name") [], .mk "=" false 6 7 none [],
              wrappedFunction],
          .mk "," false 29 30 none [],
          .mk "variable_declarator" true 31 38 none
            [.mk "identifier" true 31 32 (some "name") [], .mk "=" false 33 34 none [],
              wrappedName]]]

/-- Whether the variables of a file are functions, and their types. -/
def SourceFile.classification (file : SourceFile) : List (Bool × Text) :=
  file.variableList.map fun declaration => (declaration.isFunction, declaration.typeText)

def wrappedFileClassification : List (Bool × Text) :=
  [(true, "(x) => any"), (false, "(x) => any")]

/-- The name has the type of the function that it stands for, and is not marked as a function. -/
theorem wrappedFile_is_classified :
    ∃ file, SourceFile.ofTree "a.ts" wrappedSource wrappedFile = .ok file ∧
      file.classification = wrappedFileClassification ∧
      file.IsClassified wrappedSource wrappedFile := by
  have classified : ((SourceFile.ofTree "a.ts" wrappedSource wrappedFile).map
      SourceFile.classification).toOption = some wrappedFileClassification := by
    decide +kernel
  obtain ⟨file, read, same⟩ := exists_of_toOption_map classified
  exact ⟨file, read, same,
    (SourceFile.parentheses_only_take_room wrappedSource).2.2.2 _ _ file read⟩

/-! ## An expression that runs out of room -/

namespace Node

/-- A node around another one, with a token of one byte on each side. -/
def around (kind left right : String) (inner : Node) : Node :=
  .mk kind true (inner.start - 1) (inner.stop + 1) none
    [.mk left false (inner.start - 1) inner.start none [], inner,
      .mk right false inner.stop (inner.stop + 1) none []]

/-- A node in several pairs of parentheses. -/
def inParentheses (node : Node) (count : Nat) : Node :=
  (around "parenthesized_expression" "(" ")")^[count] node

/-- A node in several arrays, each of them in the next one. -/
def inArrays (node : Node) (count : Nat) : Node :=
  (around "array" "[" "]")^[count] node

variable {node : Node} {count : Nat}

theorem isPart_iterate {kind left right : String} (other : kind ≠ "comment")
    (isPart : node.isPart = true) (count : Nat) :
    ((around kind left right)^[count] node).isPart = true := by
  cases count with
  | zero => exact isPart
  | succ count =>
      rw [Function.iterate_succ_apply', Node.isPart, Bool.and_eq_true, Bool.not_eq_true', isComment,
        beq_eq_false_iff_ne]
      exact ⟨rfl, other⟩

theorem find?_around {kind left right : String} (isPart : node.isPart = true) :
    (around kind left right node).children.find? Node.isPart = some node := by
  have token (text : String) (start stop : Nat) :
      (Node.mk text false start stop none []).isPart = false := rfl
  rw [around, Node.children, List.find?_cons_of_neg (by simp [token]),
    List.find?_cons_of_pos isPart]

theorem unwraps_inParentheses (isPart : node.isPart = true)
    (bare : node.kind ≠ "parenthesized_expression") (count : Nat) :
    Unwraps count (node.inParentheses count) node := by
  induction count with
  | zero => exact .bare bare
  | succ count ih =>
      rw [inParentheses, Function.iterate_succ_apply']
      exact .inside rfl (find?_around (isPart_iterate (by decide) isPart count)) ih

end Node

namespace TypeText

variable {source : SourceBytes} {scope : Scope} {room : Nat} {node : Node} {fixed : Bool}

theorem inferWithin_around_array (isPart : node.isPart = true) :
    inferWithin source scope (room + 3) fixed (node.around "array" "[" "]") =
      (inferWithin source scope room false node).map fun type => arrayOf [type] := by
  have token (text : String) (start stop : Nat) :
      (Node.mk text false start stop none []).isPart = false := rfl
  change (inferParts source scope room [_, node, _]).map arrayOf = _
  simp only [inferParts, token, isPart, if_true, Bool.false_eq_true, if_false]
  cases inferWithin source scope room false node <;> rfl

/-- Arrays take room for three calls each, and have a type exactly if what is in them has one. -/
theorem inferWithin_inArrays (source : SourceBytes) (scope : Scope) (room : Nat)
    (isPart : node.isPart = true) (count : Nat) :
    ∃ shown : Text → Text,
      inferWithin source scope (room + 3 * count) false (node.inArrays count) =
        (inferWithin source scope room false node).map shown := by
  induction count with
  | zero =>
      refine ⟨id, ?_⟩
      change inferWithin source scope room false node = _
      cases inferWithin source scope room false node <;> rfl
  | succ count ih =>
      obtain ⟨shown, same⟩ := ih
      refine ⟨fun text => arrayOf [shown text], ?_⟩
      rw [Node.inArrays, Function.iterate_succ_apply', Nat.mul_succ, ← Nat.add_assoc,
        inferWithin_around_array (Node.isPart_iterate (by decide) isPart count), ← Node.inArrays,
        same]
      cases inferWithin source scope room false node <;> rfl

end TypeText

/--
The number in `let f = ((…[[…((…1…))…]]…))`, with 80 pairs, 290 arrays and 60 pairs around it.
-/
def deepNumber : Node :=
  .mk "number" true 438 439 none []

def deepArrays : Node :=
  (deepNumber.inParentheses 60).inArrays 290

def deepValue : Node :=
  deepArrays.inParentheses 80

/-- The arrays have a type, and in parentheses they have none: there is no room left for it. -/
theorem parentheses_take_last_room :
    deepValue.unwrapped = deepArrays ∧
      (∃ type, TypeText.infer [] [] false deepValue.unwrapped = .ok type) ∧
      TypeText.infer [] [] false deepValue = .error .tooDeep := by
  have number : Node.Unwraps 60 (deepNumber.inParentheses 60) deepNumber :=
    Node.unwraps_inParentheses (by decide) (by decide) 60
  have isPart : (deepNumber.inParentheses 60).isPart = true :=
    Node.isPart_iterate (by decide) (by decide) 60
  have arrays : Node.Unwraps 80 deepValue deepArrays :=
    Node.unwraps_inParentheses (Node.isPart_iterate (by decide) isPart 290) (by decide) 80
  have unwrapped : deepValue.unwrapped = deepArrays := arrays.eq_unwrapped.symm
  refine ⟨unwrapped, ?_, ?_⟩
  · obtain ⟨shown, typed⟩ := TypeText.inferWithin_inArrays [] [] 110 isPart 290
    have isNumber :
        TypeText.inferWithin [] [] (50 + 60) false (deepNumber.inParentheses 60) =
          .ok "number" := by
      rw [TypeText.inferWithin_of_unwraps number]
      rfl
    refine ⟨shown "number", ?_⟩
    rw [unwrapped]
    refine typed.trans ?_
    rw [isNumber]
    rfl
  · obtain ⟨shown, untyped⟩ := TypeText.inferWithin_inArrays [] [] 30 isPart 290
    have taken : TypeText.inferWithin [] [] (900 + 80) false deepValue =
        TypeText.inferWithin [] [] 900 false deepArrays :=
      TypeText.inferWithin_of_unwraps arrays
    refine taken.trans (untyped.trans ?_)
    rw [TypeText.inferWithin_of_lt number (by decide)]
    rfl

end ApiDocs
