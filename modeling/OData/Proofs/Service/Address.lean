/-
# Addresses in parts

An endpoint address is split into scheme, host and path, and its root is put together
from them again. Nothing is lost on the way but the slashes at the end: where the scheme
ends is settled by the first mark, where the host ends by the first slash behind it, and
what comes after is kept as it is, templates included. So splitting and putting together
are each other's inverse, and an address can be split exactly if there is something
between the mark and the next slash.
-/

import OData.Proofs.Text.Search
import OData.Service.Address
import Mathlib.Data.List.DropRight

namespace OData.Address

/-- The parts of an address: a host that is one segment, and a path that is empty or
begins, and does not end, with a slash. -/
structure IsPlain (address : Address) : Prop where
  someHost : address.host ≠ ""
  oneSegment : '/' ∉ address.host.toList
  path : address.path = "" ∨
    address.path.toList.head? = some '/' ∧ address.path.toList.getLast? ≠ some '/'

/-- Slashes as they may stand at the end of an address. -/
def slashes (count : Nat) : List Char := List.replicate count '/'

theorem exists_slashes (chars : List Char) :
    ∃ count, chars = trimSlashes chars ++ slashes count := by
  have split : trimSlashes chars ++ chars.rtakeWhile (· == '/') = chars :=
    List.rdropWhile_append_rtakeWhile
  have areSlashes : chars.rtakeWhile (· == '/') =
      slashes (chars.rtakeWhile (· == '/')).length :=
    List.eq_replicate_of_mem fun c isMember => by simpa using List.mem_rtakeWhile_imp isMember
  exact ⟨_, by rw [← areSlashes, split]⟩

theorem getLast?_trimSlashes (chars : List Char) :
    (trimSlashes chars).getLast? ≠ some '/' := by
  intro isSlash
  have someLeft : trimSlashes chars ≠ [] := by
    intro empty
    rw [empty] at isSlash
    cases isSlash
  have noSlash : ¬((trimSlashes chars).getLast someLeft == '/') = true :=
    List.rdropWhile_last_not (· == '/') chars someLeft
  rw [List.getLast?_eq_some_getLast someLeft, Option.some.injEq] at isSlash
  simp [isSlash] at noSlash

theorem trimSlashes_append_slashes {chars : List Char} (noSlash : chars.getLast? ≠ some '/')
    (count : Nat) : trimSlashes (chars ++ slashes count) = chars := by
  induction count with
  | zero =>
      have kept : chars.rdropWhile (· == '/') = chars := by
        rw [List.rdropWhile_eq_self_iff]
        intro someLeft
        rw [List.getLast?_eq_some_getLast someLeft, ne_eq, Option.some.injEq] at noSlash
        simpa using noSlash
      rw [slashes, List.replicate_zero, List.append_nil]
      exact kept
  | succ count ih =>
      rw [slashes, List.replicate_succ', ← List.append_assoc]
      exact (List.rdropWhile_concat_pos (· == '/') _ '/' (by decide)).trans ih

/-- What is behind a host is kept as a path. -/
theorem path_trimSlashes (rest : List Char) :
    let path := String.ofList (trimSlashes (rest.dropWhile (· != '/')))
    path = "" ∨ path.toList.head? = some '/' ∧ path.toList.getLast? ≠ some '/' := by
  intro path
  have isPrefix : path.toList <+: rest.dropWhile (· != '/') := by
    rw [String.toList_ofList]
    exact List.rdropWhile_prefix _ _
  cases isPath : path.toList with
  | nil => exact .inl (String.toList_eq_nil_iff.mp isPath)
  | cons c others =>
      obtain ⟨more, whole⟩ := isPrefix
      have head : (rest.dropWhile (· != '/')).head? = some c := by
        rw [← whole, isPath]
        rfl
      have isSlash : (c != '/') = false := by
        have stops := List.head?_dropWhile_not (· != '/') rest
        rw [head] at stops
        exact stops
      refine .inr ⟨?_, ?_⟩
      · simpa using isSlash
      · rw [← isPath, String.toList_ofList]
        exact getLast?_trimSlashes _

/-- What begins with slashes at the end is nothing, or begins with a slash. -/
theorem head?_append_slashes {path : List Char} (plain : path = [] ∨ path.head? = some '/')
    (count : Nat) : ∀ c ∈ (path ++ slashes count).head?, (c != '/') = false := by
  intro c isHead
  rcases plain with rfl | begins
  · cases count with
    | zero => cases isHead
    | succ count =>
        obtain rfl := Option.some.inj isHead
        decide
  · rw [List.head?_append, begins] at isHead
    obtain rfl := Option.some.inj isHead
    decide

/-- An address splits into these parts exactly if it is put together from them, up to
slashes at the end, and the mark behind the scheme is the first one. -/
theorem split_eq_ok_iff {endpoint : String} {address : Address} :
    split endpoint = .ok address ↔ address.IsPlain ∧ ∃ count,
      Text.CutsFirst "://".toList endpoint.toList address.scheme.toList
        (address.host.toList ++ (address.path.toList ++ slashes count)) := by
  constructor
  · intro isSplit
    unfold split at isSplit
    split at isSplit
    · cases isSplit
    · rename_i scheme rest found
      rw [Text.cutChars?_eq_some_iff (by decide)] at found
      dsimp only at isSplit
      split at isSplit
      · cases isSplit
      · rename_i someHost
        cases isSplit
        obtain ⟨count, whole⟩ := exists_slashes (rest.dropWhile (· != '/'))
        refine ⟨⟨?_, ?_, ?_⟩, count, ?_⟩
        · simpa using someHost
        · intro inside
          rw [String.toList_ofList] at inside
          simpa using List.mem_takeWhile_imp inside
        · exact path_trimSlashes rest
        · simp only [String.toList_ofList, ← whole, List.takeWhile_append_dropWhile]
          exact found
  · rintro ⟨plain, count, cuts⟩
    have begins : address.path.toList = [] ∨ address.path.toList.head? = some '/' :=
      plain.path.imp (fun empty => by rw [empty]; rfl) And.left
    have noSlash : address.path.toList.getLast? ≠ some '/' := by
      rcases plain.path with empty | ends
      · rw [empty]
        exact fun isSlash => by cases isSlash
      · exact ends.2
    obtain ⟨isHost, isPath⟩ := Text.takeWhile_dropWhile_append
      (Text.passes_of_not_mem plain.oneSegment) (head?_append_slashes begins count)
    have someHost : address.host.toList.isEmpty = false := by
      simpa using plain.someHost
    rw [split, (Text.cutChars?_eq_some_iff (by decide)).mpr cuts]
    simp only [isHost, isPath, someHost, trimSlashes_append_slashes noSlash,
      String.ofList_toList]
    rfl

theorem toList_root (address : Address) : address.root.toList =
    address.scheme.toList ++ "://".toList ++ (address.host.toList ++ address.path.toList) := by
  simp only [root, serviceRoot, String.toList_append, List.append_assoc]

/-- A host and a path that splitting gives do not end with a slash together. -/
theorem IsPlain.getLast?_ne {address : Address} (plain : address.IsPlain) (front : List Char) :
    (front ++ (address.host.toList ++ address.path.toList)).getLast? ≠ some '/' := by
  intro isSlash
  rcases plain.path with empty | ⟨begins, ends⟩
  · have someHost : address.host.toList ≠ [] := by simpa using plain.someHost
    rw [empty, String.toList_empty, List.append_nil, List.getLast?_append_of_ne_nil _ someHost]
      at isSlash
    exact plain.oneSegment (List.mem_of_getLast? isSlash)
  · have somePath : address.path.toList ≠ [] := by
      intro empty
      rw [empty] at begins
      cases begins
    rw [← List.append_assoc, List.getLast?_append_of_ne_nil _ somePath] at isSlash
    exact ends isSlash

/-- Something between the mark and the next slash is all that splitting needs. -/
theorem exists_split {endpoint : String} {scheme rest : List Char}
    (cuts : Text.CutsFirst "://".toList endpoint.toList scheme rest)
    (someRest : rest ≠ []) (noSlash : rest.head? ≠ some '/') :
    ∃ address, split endpoint = .ok address := by
  obtain ⟨c, others, rfl⟩ := List.exists_cons_of_ne_nil someRest
  have isHost : c ≠ '/' := by simpa using noSlash
  have someHost : ¬((c :: others).takeWhile (· != '/')).isEmpty = true := by
    simp [isHost]
  rw [split, (Text.cutChars?_eq_some_iff (by decide)).mpr cuts]
  exact ⟨_, if_neg someHost⟩

/-- An address can be split exactly if something stands between its first mark and the next
slash. Its parts are then a host of one segment and a path that is empty or begins, and
does not end, with a slash. Put together again they are the address without the slashes at
its end, and they are split into the same parts. -/
theorem split_in_parts (endpoint : String) :
    ((∃ address, split endpoint = .ok address) ↔
      ∃ scheme rest, Text.CutsFirst "://".toList endpoint.toList scheme rest ∧
        rest ≠ [] ∧ rest.head? ≠ some '/') ∧
    ∀ address, split endpoint = .ok address →
      address.IsPlain ∧
      (∃ count, endpoint.toList = address.root.toList ++ slashes count) ∧
      address.root.toList.getLast? ≠ some '/' ∧
      split address.root = .ok address := by
  refine ⟨⟨?_, ?_⟩, ?_⟩
  · rintro ⟨address, isSplit⟩
    obtain ⟨plain, count, cuts⟩ := split_eq_ok_iff.mp isSplit
    have someHost : address.host.toList ≠ [] := by simpa using plain.someHost
    refine ⟨_, _, cuts, by simp [someHost], fun isSlash => plain.oneSegment ?_⟩
    rw [List.head?_append_of_ne_nil _ someHost] at isSlash
    exact List.mem_of_head? isSlash
  · rintro ⟨scheme, rest, cuts, someRest, noSlash⟩
    exact exists_split cuts someRest noSlash
  · intro address isSplit
    obtain ⟨plain, count, cuts⟩ := split_eq_ok_iff.mp isSplit
    have whole : endpoint.toList = address.root.toList ++ slashes count := by
      rw [cuts.whole, toList_root]
      simp only [List.append_assoc]
    refine ⟨plain, ⟨count, whole⟩, ?_, split_eq_ok_iff.mpr ⟨plain, 0, ?_, ?_⟩⟩
    · rw [toList_root]
      exact plain.getLast?_ne _
    · rw [toList_root, slashes, List.replicate_zero, List.append_nil]
    · intro front behind same
      apply cuts.first front (behind ++ slashes count)
      rw [whole, same, List.append_assoc]

/-- The address of a site template, with slashes at its end and a second mark in its path. -/
def siteEndpoint : String := "https://graph.example.com/v1.0/sites/\x7bsite\x7d/x://y//"

/-- Its parts. -/
def siteAddress : Address where
  scheme := "https"
  host := "graph.example.com"
  path := "/v1.0/sites/\x7bsite\x7d/x://y"

theorem site_endpoint_in_parts :
    split siteEndpoint = .ok siteAddress ∧ siteAddress.IsPlain ∧
      split siteAddress.root = .ok siteAddress := by
  have isSplit : split siteEndpoint = .ok siteAddress := rfl
  obtain ⟨plain, -, -, again⟩ := (split_in_parts siteEndpoint).2 siteAddress isSplit
  exact ⟨isSplit, plain, again⟩

end OData.Address
