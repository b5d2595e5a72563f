/-
# Integers in equalities

An equality compares with the literals that are written for it. An integer among them that
fits 64 bits stands in the expression in the same digits. Every other one becomes a float
on the way and stands there as the shortest decimal of that float: as an integer again, but
with no more than seventeen digits before its last zeros, so that it is the same integer
only if it is that decimal itself. This holds for files and for inputs alike.
-/

import OData.Proofs.Filter.Operands
import OData.Proofs.Filter.Route
import OData.Proofs.Json.Integer

namespace OData.Filter

open Json (Document Numeral)

/-! ## Equalities -/

/-- A field compared with one operand, or with a list of them. -/
def equalityText (key : String) : List String → String
  | [operand] => " " ++ key ++ " eq " ++ operand
  | operands => " " ++ key ++ " in (" ++ ",".intercalate operands ++ ")"

namespace Clause

variable {clause : Clause} (isEquality : clause.operator = "=")

include isEquality

theorem relation_of_equality :
    clause.relation = ⟨if clause.hasSeveral then "in" else "=", false⟩ := by
  have compares : isComparison clause.operator = true := by rw [isEquality]; decide
  rw [relation_of_isComparison compares, isEquality]
  cases clause.hasSeveral <;> decide

theorem keptKey?_of_equality : clause.keptKey? = clause.key := by
  have noFlag : clause.flag? = none := by
    rw [flag?, isEquality]
    rfl
  rw [keptKey?, isSkipped, noFlag]
  rfl

/-- An equality in which case counts is written with the expressions of its values. -/
theorem text_of_equality (caseCounts : clause.ignoresCase = false) (nonempty : clause.values ≠ [])
    (key : String) :
    clause.text key = equalityText key (clause.values.map Literal.expression) := by
  have noSearch : clause.isLike = false := by rw [isLike, isEquality]; decide
  have bare : clause.text key = clause.bareText key := by
    rw [text_eq, relation_of_equality isEquality, noSearch]
    rfl
  have expressions : clause.values.map clause.operand = clause.values.map Literal.expression := by
    apply List.map_congr_left
    intro value _
    rw [operand, caseCounts]
    rfl
  rw [bare, bareText, relation_of_equality isEquality, caseCounts]
  by_cases several : 2 ≤ clause.values.length
  · have isIn : clause.hasSeveral = true := decide_eq_true several
    obtain ⟨first, second, others, values⟩ := exists_values_of_several several
    have word : " in (" = " " ++ (token "in" ++ " (") := by decide
    rw [isIn, if_pos rfl, operands_several several (by decide), expressions, values]
    simp only [List.map_cons, equalityText, lowerIf, word, String.append_assoc]
    rfl
  · obtain ⟨value, values⟩ : ∃ value, clause.values = [value] := by
      have length := List.length_pos_iff.mpr nonempty
      exact List.length_eq_one_iff.mp (by omega)
    have isSingle : clause.hasSeveral = false := decide_eq_false several
    have word : " eq " = " " ++ (token "=" ++ " ") := by decide
    rw [values, List.map_singleton, List.map_singleton, List.singleton_inj] at expressions
    rw [isSingle, if_neg (by decide), operands_single values (by decide) (by decide), expressions,
      values]
    simp only [List.map_cons, List.map_nil, equalityText, lowerIf, word, String.append_assoc]
    rfl

end Clause

/-! ## Integers -/

/-- An integer in 64 bits is the expression of its literal. -/
theorem expression_of_fitsInt64 {integer : Int} (fits : Number.fitsInt64 integer = true) :
    Literal.expression (some (.integer (Int64.ofInt integer))) = toString integer := by
  simp only [Number.fitsInt64, Bool.and_eq_true, decide_eq_true_eq] at fits
  have same : (Int64.ofInt integer).toInt = integer :=
    Int64.toInt_ofInt_of_le (by omega) (by omega)
  show toString (Int64.ofInt integer).toInt = toString integer
  rw [same]

/-- The literal of an integer is written as the integer when it fits 64 bits, and else as
the integer it is rounded to. -/
theorem exists_written {numeral : Numeral} {integer : Int} (writes : numeral.Writes integer)
    {literal : Literal} (isLiteral : IsLiteralOf (.number numeral) literal) :
    ∃ written, literal.expression = toString written ∧
      if Number.fitsInt64 integer then written = integer
      else numeral.RoundsTo written ∧ Json.HasDigits 17 written := by
  obtain ⟨levels, json, isJson, isLiteral⟩ := isLiteral
  obtain ⟨number, isNumber, rfl⟩ := Option.map_eq_some_iff.mp isJson
  have isKept := writes.kept_or_rounded isNumber
  rw [literalOf] at isLiteral
  cases fits : Number.fitsInt64 integer with
  | true =>
      rw [fits, if_pos rfl] at isKept
      rw [isKept] at isLiteral
      cases isLiteral
      exact ⟨integer, expression_of_fitsInt64 fits, by rw [if_pos rfl]⟩
  | false =>
      rw [fits, if_neg (by decide)] at isKept
      rw [isKept.1] at isLiteral
      cases isLiteral
      obtain ⟨written, rounds, isText, few⟩ := Json.Numeral.exists_roundsTo isNumber isKept
      exact ⟨written, isText, by rw [if_neg (by decide)]; exact ⟨rounds, few⟩⟩

/-- A filter that is not refused has a clause for each written one. Where this is an equality
in which case counts, on some field, it stands in the expression with the operands of its
values, and an integer among these stands there as an integer: as itself if it fits 64
bits, and otherwise as the one it is rounded to, of seventeen digits at most before its
last zeros. So it is kept exactly if it fits or is that decimal itself. -/
theorem integer_in_equality {route : Route} (takes : route.TakesClauses) {content : String}
    {document : Document} (isDocument : Document.ofText? content = some document)
    {clauses : List Clause} (areClauses : route.clauses? content = some clauses)
    {position : Nat} {entry : Document}
    (isEntry : (route.entries document)[position]? = some entry) {place : Nat}
    {numeral : Numeral} (isValue : (valuesOf entry)[place]? = some (.number numeral))
    {integer : Int} (writes : numeral.Writes integer) :
    ∃ clause, clauses[position]? = some clause ∧
      ∀ key text, clause.key = some key → clause.operator = "=" → clause.ignoresCase = false →
        compile clauses = .ok text →
          ∃ written operands before after,
            text = before ++ equalityText key operands ++ after ∧
            operands.length = (valuesOf entry).length ∧
            operands[place]? = some (toString written) ∧
            (if Number.fitsInt64 integer then written = integer
              else numeral.RoundsTo written ∧ Json.HasDigits 17 written) ∧
            (written = integer ↔ Number.fitsInt64 integer ∨ numeral.RoundsTo integer) := by
  obtain ⟨clause, isClause, areTaken⟩ :=
    exists_getElem?_of_forall₂ (route.forall₂_takes takes isDocument areClauses) isEntry
  obtain ⟨literal, isLiteral, isOf⟩ := exists_getElem?_of_forall₂ areTaken isValue
  obtain ⟨written, isText, isKept⟩ := exists_written writes isOf
  refine ⟨clause, isClause, fun key text isKey isEquality caseCounts isCompiled => ?_⟩
  have nonempty : clause.values ≠ [] := by
    intro empty
    rw [empty] at isLiteral
    cases isLiteral
  have kept : clause.keptKey? = some key :=
    (Clause.keptKey?_of_equality isEquality).trans isKey
  obtain ⟨before, after, rfl⟩ :=
    text_of_compileFrom isCompiled (List.mem_of_getElem? isClause) kept
  refine ⟨written, clause.values.map Literal.expression, before, after, ?_, ?_, ?_, isKept, ?_⟩
  · rw [Clause.text_of_equality isEquality caseCounts nonempty]
  · rw [List.length_map, areTaken.length_eq]
  · rw [List.getElem?_map, isLiteral, Option.map_some, isText]
  · cases fits : Number.fitsInt64 integer with
    | true =>
        rw [fits, if_pos rfl] at isKept
        exact iff_of_true isKept (.inl rfl)
    | false =>
        rw [fits, if_neg (by decide)] at isKept
        constructor
        · rintro rfl
          exact .inr isKept.1
        · rintro (isTrue | rounds)
          · cases isTrue
          · exact isKept.1.unique rounds

/-- A file with an equality between a size and `2 ^ 63`. -/
def largeFile : String := "[\x7b\"key\":\"size\",\"values\":[9223372036854775808]\x7d]"

/-- The integer in the file. -/
def largeNumeral : Numeral :=
  ⟨false, [9, 2, 2, 3, 3, 7, 2, 0, 3, 6, 8, 5, 4, 7, 7, 5, 8, 0, 8], none, none⟩

/-- The equality in the file. -/
def largeEntry : Document := .object [
  ("key".toUTF8.data.toList.map .byte, .text ("size".toUTF8.data.toList.map .byte)),
  ("values".toUTF8.data.toList.map .byte, .array [.number largeNumeral])]

/-- The clause that it is read as. -/
def largeClause : Clause where
  key := some "size"
  values := [some (.decimal (Json.Number.integer 9223372036854775808).toFloat)]

theorem writes_largeNumeral : largeNumeral.Writes 9223372036854775808 where
  noFraction := rfl
  noExponent := rfl
  areDigits := by decide
  integer_eq := by decide
  notMinusZero := by decide

theorem roundsTo_largeNumeral : largeNumeral.RoundsTo 9223372036854776000 := by
  have isNumber : largeNumeral.value? = some (.integer 9223372036854775808) := rfl
  have isRounded : (Json.Number.integer 9223372036854775808).IsRounded false :=
    writes_largeNumeral.kept_or_rounded isNumber
  obtain ⟨written, rounds, isText, -⟩ := Json.Numeral.exists_roundsTo isNumber isRounded
  have printed : Number.plainText (Json.Number.integer 9223372036854775808).toFloat =
      toString (9223372036854776000 : Int) := by decide +kernel
  have same := congrArg Number.readInt? (isText.symm.trans printed)
  rw [Number.readInt?_toString, Number.readInt?_toString] at same
  rwa [Option.some.inj same] at rounds

/-- The first integer that does not fit is rounded, so the filter asks for another one. -/
theorem large_integer_in_equality :
    Route.file.clauses? largeFile = some [largeClause] ∧
      compile [largeClause] = .ok " size eq 9223372036854776000" ∧
      ∃ operands before after,
        " size eq 9223372036854776000" = before ++ equalityText "size" operands ++ after ∧
        operands.length = 1 ∧ operands[0]? = some "9223372036854776000" ∧
        ¬ largeNumeral.RoundsTo 9223372036854775808 := by
  have areClauses : Route.file.clauses? largeFile = some [largeClause] := rfl
  have isCompiled : compile [largeClause] = .ok " size eq 9223372036854776000" := rfl
  have isDocument : Document.ofText? largeFile = some (.array [largeEntry]) := rfl
  obtain ⟨clause, isClause, stands⟩ := @integer_in_equality .file trivial _ _ isDocument _
    areClauses 0 largeEntry rfl 0 largeNumeral rfl _ writes_largeNumeral
  cases isClause
  obtain ⟨written, operands, before, after, isText, count, isOperand, isKept, exactly⟩ :=
    stands "size" _ rfl rfl rfl isCompiled
  have tooLarge : Number.fitsInt64 9223372036854775808 = false := rfl
  rw [tooLarge, if_neg (by decide)] at isKept
  obtain rfl := isKept.1.unique roundsTo_largeNumeral
  refine ⟨areClauses, isCompiled, operands, before, after, isText, count, isOperand, ?_⟩
  exact fun rounds => absurd (exactly.mpr (.inr rounds)) (by decide)

end OData.Filter
