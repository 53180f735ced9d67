import ModuleRepair.Proofs.Script.Fuel
import ModuleRepair.Proofs.Script.Tokens

/-!
# The grammar of scripts is bounded

Every rule of the grammar takes something, and what it calls before it does lies below its height
(`grammar_bounded`). The fuel of a scope is far above the heights.
-/
namespace ModuleRepair.Script

open Pattern

namespace Shape

/-! ## What takes something -/

section

variable {s : String} {words : List String} {l : Language} {p : Place}

theorem takes_of_visible {measure : List Char → Option Nat} (h : Visible measure) :
    Takes (token measure : Shape) :=
  ⟨h.nothing, h.ne_zero⟩

@[simp] theorem takes_kw (h : endsVisibly s.toList = true) : Takes (kw s) :=
  takes_of_visible (visible_keyword h)

@[simp] theorem takes_sym (h : endsVisibly s.toList = true) : Takes (sym s) :=
  takes_of_visible (visible_symbol h)

@[simp] theorem takes_anyKw (h : words.all (endsVisibly ·.toList) = true) :
    Takes (anyKw words) := by
  induction words with
  | nil => exact ⟨rfl, fun _ => nofun⟩
  | cons w words ih =>
    obtain ⟨first, rest⟩ := (Bool.and_eq_true _ _).mp h
    exact ⟨takes_kw first, ih rest⟩

@[simp] theorem takes_anySym (h : words.all (endsVisibly ·.toList) = true) :
    Takes (anySym words) := by
  induction words with
  | nil => exact ⟨rfl, fun _ => nofun⟩
  | cons w words ih =>
    obtain ⟨first, rest⟩ := (Bool.and_eq_true _ _).mp h
    exact ⟨takes_sym first, ih rest⟩

@[simp] theorem takes_word : Takes word := takes_of_visible visible_word

@[simp] theorem takes_str : Takes str := takes_of_visible visible_string

@[simp] theorem takes_number : Takes (token number? : Shape) := takes_of_visible visible_number

@[simp] theorem takes_regex : Takes (token regex? : Shape) := takes_of_visible visible_regex

@[simp] theorem takes_valueWord : Takes (token valueWord? : Shape) :=
  takes_of_visible visible_valueWord

@[simp] theorem takes_operator : Takes (token operator? : Shape) :=
  takes_of_visible visible_operator

@[simp] theorem takes_markupName : Takes (token markupName? : Shape) :=
  takes_of_visible visible_markupName

@[simp] theorem takes_markupString : Takes (token markupString? : Shape) :=
  takes_of_visible visible_markupString

@[simp] theorem takes_templateText : Takes (token templateText? : Shape) := by
  refine ⟨rfl, fun s zero => ?_⟩
  unfold templateText? at zero
  split at zero
  · cases zero
  · next nonzero => exact nonzero (Option.some.inj zero)

@[simp] theorem takes_markupText : Takes (token markupText? : Shape) := by
  refine ⟨rfl, fun s zero => ?_⟩
  unfold markupText? at zero
  split at zero
  · cases zero
  · next nonzero => exact nonzero (Option.some.inj zero)

@[simp] theorem takes_piece {r : Rule} : Takes (piece r) := trivial

@[simp] theorem takes_expression : Takes expression := trivial

@[simp] theorem takes_assignment : Takes assignment := trivial

@[simp] theorem takes_typeHere : Takes typeHere := trivial

@[simp] theorem not_takes_gap : ¬Takes gap :=
  fun takes => nomatch takes.1

@[simp] theorem not_takes_link : ¬Takes (link l p) := by
  unfold link
  split
  · cases l <;> exact fun takes => takes.2 ['a'] rfl
  · exact not_takes_gap

@[simp] theorem not_takes_linkName : ¬Takes (linkName l p) := by
  unfold linkName
  split
  · cases l <;> exact fun takes => takes.2 ['a'] rfl
  · exact not_takes_gap

@[simp] theorem not_takes_annotation : ¬Takes ( annotation l p) := not_takes_maybe

end

/-! ## What stays within a bound -/

section

variable {height : Rule → Nat} {slope k : Nat} {s : String} {words : List String} {l : Language}
  {p : Place}

@[simp] theorem within_kw : Within height slope k (kw s) ↔ 0 < k := Iff.rfl

@[simp] theorem within_sym : Within height slope k (sym s) ↔ 0 < k := Iff.rfl

@[simp] theorem within_anyKw (h : words.length < k) : Within height slope k (anyKw words) := by
  induction words generalizing k with
  | nil => exact h
  | cons w words ih =>
    rw [List.length_cons] at h
    have rest : Within height slope (k - 1) (anyKw words) := ih (by omega)
    exact ⟨by omega, rest.positive, rest⟩

@[simp] theorem within_anySym (h : words.length < k) : Within height slope k (anySym words) := by
  induction words generalizing k with
  | nil => exact h
  | cons w words ih =>
    rw [List.length_cons] at h
    have rest : Within height slope (k - 1) (anySym words) := ih (by omega)
    exact ⟨by omega, rest.positive, rest⟩

@[simp] theorem within_word : Within height slope k word ↔ 0 < k := Iff.rfl

@[simp] theorem within_str : Within height slope k str ↔ 0 < k := Iff.rfl

@[simp] theorem within_gap : Within height slope k gap ↔ 0 < k := Iff.rfl

@[simp] theorem within_link : Within height slope k (link l p) ↔ 0 < k := by
  unfold link
  split <;> rfl

@[simp] theorem within_linkName : Within height slope k (linkName l p) ↔ 0 < k := by
  unfold linkName
  split <;> rfl

@[simp] theorem within_piece {r : Rule} : Within height slope k (piece r) ↔ height r < k := Iff.rfl

@[simp] theorem within_expression :
    Within height slope k expression ↔ height (.expression .inner) < k := Iff.rfl

@[simp] theorem within_assignment :
    Within height slope k assignment ↔ height (.assignment .inner) < k := Iff.rfl

@[simp] theorem within_typeHere :
    Within height slope k typeHere ↔ height (.typeAt .inner) < k := Iff.rfl

end

end Shape

/-! ## The rules -/

open Shape

/-- A bound of the fuel that a rule needs before it takes anything. -/
def height : Rule → Nat
  | .expression _ => 36
  | .assignment _ => 34
  | .unary _ => 31
  | .operand _ => 26
  | .primary _ => 24
  | .arrowBody _ => 37
  | .typeAt _ => 26
  | .typeUnion _ => 21
  | .typeOperand _ => 18
  | .typePrimary _ => 13
  | .declarator _ => 11
  | .binding => 6
  | .functionTail => 11
  | .classTail => 14
  | .template | .element | .decorator => 3
  | .statement => 45
  | _ => 4

theorem grammar_takes (l : Language) (r : Rule) : Takes (grammar l r) := by
  cases r <;>
    simp [grammar, unary, primary, template, element, binding, decorator, classTail, typeAt,
      typeUnion, typeOperand, typePrimary, typeArguments, typeParameters, enumBody, declarator,
      statement, signature, functionExpression, arrowFunction, functionType, controlStatement,
      declaration, functionDeclaration, typedDeclaration, nestedModuleStatement, endsVisibly,
      Text.isAsciiBlank]

theorem grammar_within (l : Language) (r : Rule) : Within height 200 (height r) (grammar l r) := by
  cases r with
  | expression p => simp [grammar, height, endsVisibly, Text.isAsciiBlank]
  | assignment p => simp [grammar, height, continuing, endsVisibly, Text.isAsciiBlank]
  | unary p => simp [grammar, height, unary, endsVisibly, Text.isAsciiBlank]
  | operand p => simp [grammar, height, suffix, endsVisibly, Text.isAsciiBlank]
  | primary p =>
    obtain ⟨ends, consequent⟩ := p
    cases consequent <;>
      simp [grammar, height, primary, arrowTail, functionExpression, arrowFunction, endsVisibly,
        Text.isAsciiBlank]
  | arrowBody p => simp [grammar, height]
  | arguments => simp [grammar, height, commaList, endsVisibly, Text.isAsciiBlank]
  | parenthesized =>
    simp [grammar, height, commaList, coverItem, annotation, endsVisibly, Text.isAsciiBlank]
  | array => simp [grammar, height, endsVisibly, Text.isAsciiBlank]
  | object =>
    simp [grammar, height, commaList, objectMember, propertyName, endsVisibly, Text.isAsciiBlank]
  | template => simp [grammar, height, template, endsVisibly, Text.isAsciiBlank]
  | element =>
    simp [grammar, height, element, elementAttribute, children, endsVisibly, Text.isAsciiBlank]
  | binding =>
    simp [grammar, height, binding, commaList, propertyName, initial, endsVisibly,
      Text.isAsciiBlank]
  | parameters =>
    simp [grammar, height, commaList, parameter, annotation, initial, endsVisibly,
      Text.isAsciiBlank]
  | functionTail => simp [grammar, height, signature, annotation, endsVisibly, Text.isAsciiBlank]
  | decorator => simp [grammar, height, decorator, endsVisibly, Text.isAsciiBlank]
  | classTail =>
    simp [grammar, height, classTail, classMember, memberWords, startsName, propertyName, signature,
      annotation, endsVisibly, Text.isAsciiBlank]
  | typeAt p => simp [grammar, height, typeAt, functionType, endsVisibly, Text.isAsciiBlank]
  | typeUnion p => simp [grammar, height, typeUnion, endsVisibly, Text.isAsciiBlank]
  | typeOperand p =>
    simp [grammar, height, typeOperand, functionType, endsVisibly, Text.isAsciiBlank]
  | typePrimary p =>
    simp [grammar, height, typePrimary, commaList, tupleMember, endsVisibly, Text.isAsciiBlank]
  | typeArguments =>
    simp [grammar, height, typeArguments, commaList, endsVisibly, Text.isAsciiBlank]
  | typeParameters =>
    simp [grammar, height, typeParameters, commaList, endsVisibly, Text.isAsciiBlank]
  | objectType =>
    simp [grammar, height, typeMember, startsName, propertyName, signature, annotation, endsVisibly,
      Text.isAsciiBlank]
  | enumBody =>
    simp [grammar, height, enumBody, commaList, propertyName, initial, endsVisibly,
      Text.isAsciiBlank]
  | declarator p =>
    simp [grammar, height, declarator, annotation, endsVisibly, Text.isAsciiBlank]
  | block => simp [grammar, height, endsVisibly, Text.isAsciiBlank]
  | statement =>
    simp [grammar, height, statement, controlStatement, condition, loopHead, declaration,
      functionDeclaration, typedDeclaration, dottedName, nestedModuleStatement, declarators,
      signature, annotation, close, endsVisibly, Text.isAsciiBlank]

/-- Every rule takes something, and stays within its height before it does. -/
theorem grammar_bounded (l : Language) : Bounded (grammar l) height 200 where
  takes := grammar_takes l
  within := grammar_within l
  positive := by decide

end ModuleRepair.Script
