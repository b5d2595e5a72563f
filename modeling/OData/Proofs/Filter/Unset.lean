/-
# Flags that are not set

A clause that drops out is not written, but the clause before it still looks at the way
it joins. It does no harm when it joins the way the next clause behind it would: the
clause before it then sees through it. At the end of a filter there is no such clause.
An open group is closed there anyhow, so only a clause that joins by `or` would be seen.

The list with such clauses and the list without them differ in length, and a group may
be closed by a clause that drops out in one and by the end of the filter in the other.
Both are covered by `compileFrom_groupEnd`. It is needed only where no clause behind
joins by `or`, which is the same in both lists.
-/

import OData.Proofs.Filter.Groups

namespace OData.Filter

/-- Every clause that drops out joins the way the clause right behind it does, and by
`and` when it is the last one. -/
def DroppedBlendIn : List Clause → Prop
  | [] => True
  | clause :: rest =>
      (clause.isKept = false → clause.joinsByOr = rest.head?.any Clause.joinsByOr) ∧
        DroppedBlendIn rest

instance decidableDroppedBlendIn : DecidablePred DroppedBlendIn
  | [] => .isTrue trivial
  | _ :: rest =>
      have := decidableDroppedBlendIn rest
      inferInstanceAs (Decidable (_ ∧ _))

/-- The first clause that is kept joins the way the first clause does. -/
theorem opensGroup_filter_isKept {clauses : List Clause} (blend : DroppedBlendIn clauses) :
    opensGroup (clauses.filter Clause.isKept) = opensGroup clauses := by
  induction clauses with
  | nil => rfl
  | cons clause rest ih =>
      obtain ⟨blends, restBlend⟩ := blend
      cases kept : clause.isKept with
      | true =>
          rw [List.filter_cons_of_pos kept]
          rfl
      | false =>
          have sees : opensGroup (clause :: rest) = opensGroup rest := blends kept
          rw [List.filter_cons_of_neg (by simp [kept]), ih restBlend, sees]

theorem closesGroup_of_opensGroup {clauses : List Clause} (opens : opensGroup clauses = true) :
    closesGroup clauses = false := by
  cases clauses with
  | nil => cases opens
  | cons clause rest =>
      have byOr : clause.joinsByOr = true := opens
      simp [closesGroup, byOr]

theorem entersGroup_congr {rest others : List Clause}
    (same : opensGroup others = opensGroup rest) (grouped : Bool) :
    entersGroup grouped others = entersGroup grouped rest := by
  rw [entersGroup, entersGroup, same]

/-- What comes behind a clause, from the end of its group on, is the same in two lists that
compile alike and begin with the same joint. -/
theorem compileFrom_behind {rest others : List Clause}
    (same : opensGroup others = opensGroup rest)
    (compiled : ∀ grouped, compileFrom true grouped others = compileFrom true grouped rest)
    (grouped : Bool) :
    (compileFrom true (entersGroup grouped others && !leavesGroup grouped others) others).map
        ((if leavesGroup grouped others then ")" else "") ++ ·) =
      (compileFrom true (entersGroup grouped rest && !leavesGroup grouped rest) rest).map
        ((if leavesGroup grouped rest then ")" else "") ++ ·) := by
  rw [leavesGroup, leavesGroup, entersGroup_congr same]
  cases entersGroup grouped rest with
  | false => simp only [Bool.false_and, compiled]
  | true =>
      simp only [Bool.true_and]
      cases opens : opensGroup rest with
      | true =>
          rw [closesGroup_of_opensGroup opens, closesGroup_of_opensGroup (same.trans opens),
            compiled]
      | false =>
          rw [compileFrom_groupEnd opens, compileFrom_groupEnd (same.trans opens), compiled]

theorem compileFrom_filter_isKept {clauses : List Clause} (blend : DroppedBlendIn clauses)
    (started grouped : Bool) :
    compileFrom started grouped (clauses.filter Clause.isKept) =
      compileFrom started grouped clauses := by
  induction clauses generalizing started grouped with
  | nil => rfl
  | cons clause rest ih =>
      cases kept : clause.isKept with
      | false =>
          rw [List.filter_cons_of_neg (by simp [kept]), ih blend.2,
            compileFrom_dropped (Clause.keptKey?_of_isKept kept)]
      | true =>
          obtain ⟨key, isKey⟩ := Option.isSome_iff_exists.mp kept
          have same := opensGroup_filter_isKept blend.2
          have enters := entersGroup_congr same grouped
          -- The text up to the clause is the same; from there on the lists are compared.
          have behind := congrArg
            (Except.map (joint started clause ++
              (if entersGroup grouped rest && !grouped then " (" else "") ++
              clause.text key ++ ·))
            (compileFrom_behind same (ih blend.2 true) grouped)
          simp only [exceptMap_map, ← String.append_assoc, enters] at behind
          rw [List.filter_cons_of_pos kept, compileFrom_kept isKey, compileFrom_kept isKey,
            enters, behind]

/-- Clauses that drop out have no effect at all when each joins the way the clause right
behind it does, and the last one by `and`: the filter compiles to what it compiles to
without them, text or fault. -/
theorem compile_of_droppedBlendIn (clauses : List Clause) (blend : DroppedBlendIn clauses) :
    compile clauses = compile (clauses.filter Clause.isKept) :=
  (compileFrom_filter_isKept blend false false).symm

/-- Flags that are not set, and a clause without a field, in all places: in front, two in a
row inside a group, where the group ends, and at the end. -/
def sparseFilter : List Clause :=
  let unset : Clause := { key := some "active", operator := "isBoolFlag", values := [none] }
  [unset, Clause.equal "a" (some (.integer 1)), unset.joinedByOr,
    ({ key := none } : Clause).joinedByOr, (Clause.equal "b" (some (.integer 2))).joinedByOr,
    unset, Clause.equal "c" (some (.integer 3)), unset]

theorem sparseFilter_compiles_like_dense :
    DroppedBlendIn sparseFilter ∧ (sparseFilter.filter Clause.isKept).length = 3 ∧
      compile sparseFilter = .ok " ( a eq 1 or b eq 2) and c eq 3" ∧
      compile sparseFilter = compile (sparseFilter.filter Clause.isKept) :=
  ⟨by decide, rfl, rfl, compile_of_droppedBlendIn sparseFilter (by decide)⟩

end OData.Filter
