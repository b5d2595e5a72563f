/-
# Alike runs

Two runs of a call may differ in credentials only: in the values of headers whose names say
that they hold any. This module says when they are alike otherwise. Each kind of data that a
run has to do with gets a relation, from headers to whole histories; the numbers by which
calls are told apart are left open too.

Runs are compared step by step. `Mirrored` says that two actions begun in alike sessions
end alike and leave alike sessions, and is kept by everything that actions are put together
from. The world may be asked at points that belong to the two runs only, so that nothing
has to be assumed about what it would have answered elsewhere. That a point belongs to a run
has to be known before the run is over, and this is where it counts that histories only
ever grow.
-/

import OData.Proofs.Client.Growth
import OData.Proofs.Text.Search
import Mathlib.Data.List.Forall2

namespace OData.Client

open Http (Headers Request Response)

/-! ## Alike but for credentials -/

/-- The lowered name has a word for credentials in it. -/
def HoldsCredentials (name : String) : Prop :=
  ∃ word ∈ ["authorization", "cookie", "token"], word.toList <:+: Text.lowered name

theorem isSecret_iff (name : String) : isSecret name = true ↔ HoldsCredentials name := by
  rw [isSecret, List.any_eq_true]
  simp only [Text.occursIn_iff_infix]
  rfl

instance (name : String) : Decidable (HoldsCredentials name) :=
  decidable_of_iff (isSecret name = true) (isSecret_iff name)

/-- Two headers of one name, and of one value if they do not hold credentials. -/
def AlikeEntries (entry other : String × String) : Prop :=
  entry.1 = other.1 ∧ (HoldsCredentials entry.1 ∨ entry.2 = other.2)

/-- The same headers in the same order, but for the values of credentials. -/
def AlikeHeaders (headers others : Headers) : Prop :=
  List.Forall₂ AlikeEntries headers.entries others.entries

namespace AlikeHeaders

variable {headers others : Headers}

theorem refl (headers : Headers) : AlikeHeaders headers headers :=
  List.forall₂_same.mpr fun _ _ => ⟨rfl, .inr rfl⟩

theorem set (alike : AlikeHeaders headers others) (name : String) {value other : String}
    (same : HoldsCredentials name ∨ value = other) :
    AlikeHeaders (headers.set name value) (others.set name other) := by
  apply List.rel_append
  · apply List.rel_filter _ alike
    rintro entry other ⟨sameName, -⟩
    simp only [sameName]
  · exact .cons ⟨rfl, same⟩ .nil

/-- The log shows alike headers as the same. -/
theorem shown (alike : AlikeHeaders headers others) :
    shownHeaders headers = shownHeaders others := by
  rw [shownHeaders, shownHeaders, ← List.forall₂_eq_eq_eq, List.forall₂_map_left_iff,
    List.forall₂_map_right_iff]
  apply alike.imp
  rintro ⟨name, value⟩ ⟨_, other⟩ ⟨rfl, credentials | rfl⟩
  · rw [(isSecret_iff name).mpr credentials]
    rfl
  · rfl

/-- The first header of a name has the same value in both, unless it holds credentials.
Whether it does depends on its name only up to case. -/
theorem find?_eq {entries kept : List (String × String)}
    (alike : List.Forall₂ AlikeEntries entries kept) {name : String}
    (isOpen : ¬HoldsCredentials name) :
    (entries.find? fun entry => Text.sameIgnoringCase entry.1 name).map Prod.snd =
      (kept.find? fun entry => Text.sameIgnoringCase entry.1 name).map Prod.snd := by
  induction alike with
  | nil => rfl
  | @cons entry other _ _ isAlike _ ih =>
      obtain ⟨sameName, sameValue⟩ := isAlike
      cases isNamed : Text.sameIgnoringCase entry.1 name with
      | true =>
          have isOpenToo : ¬HoldsCredentials entry.1 := by
            rwa [HoldsCredentials, Text.lowered_congr isNamed]
          simp only [List.find?_cons, isNamed, sameName ▸ isNamed]
          exact congrArg some (sameValue.resolve_left isOpenToo)
      | false =>
          simp only [List.find?_cons, isNamed, sameName ▸ isNamed]
          exact ih

theorem get? (alike : AlikeHeaders headers others) {name : String}
    (isOpen : ¬HoldsCredentials name) : headers.get? name = others.get? name :=
  find?_eq alike isOpen

end AlikeHeaders

/-- The same requests but for credentials. -/
structure AlikeRequests (request other : Request) : Prop where
  method : request.method = other.method
  target : request.target = other.target
  headers : AlikeHeaders request.headers other.headers
  body : request.body = other.body

/-- The same responses but for credentials. -/
structure AlikeResponses (response other : Response) : Prop where
  status : response.status = other.status
  headers : AlikeHeaders response.headers other.headers
  body : response.body = other.body

/-- The same requests, as they are handed to the transport, but for credentials. -/
structure AlikeDispatches (dispatch other : Dispatch) : Prop where
  request : AlikeRequests dispatch.request other.request
  host : dispatch.host = other.host
  secure : dispatch.secure = other.secure
  transaction : dispatch.transaction = other.transaction

/-- The same verdicts, but for credentials in what they make of a request. -/
structure AlikeVerdicts (verdict other : Verdict) : Prop where
  accepted : verdict.accepted = other.accepted
  request : AlikeRequests verdict.request other.request

theorem AlikeResponses.content? {response other : Response}
    (alike : AlikeResponses response other) : response.content? = other.content? := by
  rw [Response.content?, Response.content?, alike.body]

/-- Where a new entity is to be found is said in headers that do not hold credentials. -/
theorem AlikeResponses.createdAt? {response other : Response}
    (alike : AlikeResponses response other) :
    Body.createdAt? response = Body.createdAt? other := by
  have isOpen : ¬HoldsCredentials "OData-EntityId" ∧ ¬HoldsCredentials "Location" := by decide
  rw [Body.createdAt?, Body.createdAt?, alike.headers.get? isOpen.1, alike.headers.get? isOpen.2]

theorem AlikeRequests.refl (request : Request) : AlikeRequests request request :=
  ⟨rfl, rfl, .refl _, rfl⟩

/-- The same happenings, but for credentials and the numbers of calls. -/
inductive AlikeHappenings : Happening → Happening → Prop
  | resolved : AlikeHappenings .resolved .resolved
  | authenticated {request other : Request} (alike : AlikeRequests request other) :
      AlikeHappenings (.authenticated request) (.authenticated other)
  | offered {request other : Request} (alike : AlikeRequests request other) :
      AlikeHappenings (.offered request) (.offered other)
  | sent {dispatch other : Dispatch} (alike : AlikeDispatches dispatch other) :
      AlikeHappenings (.sent dispatch) (.sent other)
  | logged (number other : Nat) (operation : String) (event : LogEvent) :
      AlikeHappenings (.logged ⟨number, operation, event⟩) (.logged ⟨other, operation, event⟩)

/-- The same histories, but for credentials and the numbers of calls. -/
abbrev AlikeHistories : History → History → Prop := List.Forall₂ AlikeHappenings

/-- The same sessions, but for credentials and the numbers of calls. -/
structure AlikeSessions (session other : Session) : Prop where
  history : AlikeHistories session.history other.history
  definition : session.definition = other.definition

/-- What an entry of the log tells apart from the number of the call. -/
def LogEntry.unnumbered (entry : LogEntry) : String × LogEvent := (entry.operation, entry.event)

theorem AlikeHistories.log {events others : History} (alike : AlikeHistories events others) :
    (History.log events).map LogEntry.unnumbered =
      (History.log others).map LogEntry.unnumbered := by
  induction alike with
  | nil => rfl
  | cons isAlike _ ih =>
      cases isAlike with
      | logged number other operation event => exact congrArg (List.cons (operation, event)) ih
      | resolved => exact ih
      | authenticated _ => exact ih
      | offered _ => exact ih
      | sent _ => exact ih

theorem AlikeSessions.after {session other : Session} (alike : AlikeSessions session other)
    {events others : History} (areAlike : AlikeHistories events others) :
    AlikeSessions (session.after events) (other.after others) :=
  ⟨List.rel_append alike.history areAlike, alike.definition⟩

/-- Two results are the same fault, or are both good and related. -/
inductive Matching {α β : Type} (related : α → β → Prop) : Except Fault α → Except Fault β → Prop
  | ok {value : α} {other : β} (isRelated : related value other) :
      Matching related (.ok value) (.ok other)
  | error (fault : Fault) : Matching related (.error fault) (.error fault)

namespace Matching

variable {α : Type} {result other : Except Fault α}

theorem of_eq (same : result = other) : Matching Eq result other := by
  subst same
  cases result with
  | ok value => exact .ok rfl
  | error fault => exact .error fault

theorem eq (matching : Matching Eq result other) : result = other := by
  cases matching with
  | ok same => rw [same]
  | error fault => rfl

end Matching

/-! ## Runs -/

/-- A run, by the history with which it begins and the one with which it is over. -/
structure Stretch where
  before : History
  afterwards : History

/-- In the run, one history was reached and then another. -/
def Stretch.Passes (run : Stretch) (first second : History) : Prop :=
  run.before <+: first ∧ second <+: run.afterwards

/-- At one point of two runs, alike things happen. -/
structure Meet (here there : Stretch) (past pastThere : History)
    (happening happeningThere : Happening) : Prop where
  passes : here.Passes past (past ++ [happening])
  passesThere : there.Passes pastThere (pastThere ++ [happeningThere])
  alikePasts : AlikeHistories past pastThere
  alike : AlikeHappenings happening happeningThere

/-- Within two runs, two actions begun in alike sessions end alike, and leave alike
sessions. -/
def Mirrored {α β : Type} (here there : Stretch) (related : α → β → Prop) (action : Action α)
    (counterpart : Action β) : Prop :=
  ∀ session other : Session, AlikeSessions session other →
    here.Passes session.history (action.course session).2.history →
    there.Passes other.history (counterpart.course other).2.history →
    Matching related (action.course session).1 (counterpart.course other).1 ∧
      AlikeSessions (action.course session).2 (counterpart.course other).2

namespace Mirrored

variable {here there : Stretch} {α β γ δ : Type} {related : α → β → Prop}
  {relatedThen : γ → δ → Prop}

theorem compute {result : Except Fault α} {other : Except Fault β}
    (matching : Matching related result other) :
    Mirrored here there related (Action.compute result) (Action.compute other) :=
  fun _ _ alike _ _ => ⟨matching, alike⟩

theorem pure {value : α} {other : β} (isRelated : related value other) :
    Mirrored here there related (pure value) (pure other) :=
  compute (.ok isRelated)

theorem throw (fault : Fault) :
    Mirrored here there related (throw fault : Action α) (throw fault : Action β) :=
  compute (.error fault)

theorem ask {happening happeningThere : Happening}
    (isAlike : AlikeHappenings happening happeningThere) {answer : History → Except Fault α}
    {answerThere : History → Except Fault β}
    (answers : ∀ {past pastThere}, Meet here there past pastThere happening happeningThere →
      Matching related (answer past) (answerThere pastThere)) :
    Mirrored here there related (Action.ask happening answer)
      (Action.ask happeningThere answerThere) := by
  intro session other alike passes passesThere
  exact ⟨answers ⟨passes, passesThere, alike.history, isAlike⟩, alike.after (.cons isAlike .nil)⟩

theorem bind {action : Action α} {counterpart : Action β} {next : α → Action γ}
    {nextThere : β → Action δ} [Grows action] [Grows counterpart] [∀ value, Grows (next value)]
    [∀ value, Grows (nextThere value)] (begins : Mirrored here there related action counterpart)
    (continues : ∀ {value other}, related value other →
      Mirrored here there relatedThen (next value) (nextThere other)) :
    Mirrored here there relatedThen (action >>= next) (counterpart >>= nextThere) := by
  intro session other alike passes passesThere
  have first := begins session other alike
    ⟨passes.1, (Grows.isPrefix_bind action next session).trans passes.2⟩
    ⟨passesThere.1, (Grows.isPrefix_bind counterpart nextThere other).trans passesThere.2⟩
  have grown : session.history <+: (action.course session).2.history := Grows.isPrefix session
  have grownThere : other.history <+: (counterpart.course other).2.history := Grows.isPrefix other
  cases ended : action.course session with | mk result reached =>
  cases endedThere : counterpart.course other with | mk resultThere reachedThere =>
  rw [ended] at first grown
  rw [endedThere] at first grownThere
  obtain ⟨matching, reachedAlike⟩ := first
  cases matching with
  | error fault =>
      rw [Action.course_bind_error ended, Action.course_bind_error endedThere]
      exact ⟨.error fault, reachedAlike⟩
  | ok isRelated =>
      rw [Action.course_bind_ok ended] at passes ⊢
      rw [Action.course_bind_ok endedThere] at passesThere ⊢
      exact continues isRelated reached reachedThere reachedAlike ⟨passes.1.trans grown, passes.2⟩
        ⟨passesThere.1.trans grownThere, passesThere.2⟩

theorem outcome {action : Action α} {counterpart : Action β}
    (mirrored : Mirrored here there related action counterpart) :
    Mirrored here there (Matching related) action.outcome counterpart.outcome := by
  intro session other alike passes passesThere
  obtain ⟨matching, stillAlike⟩ := mirrored session other alike passes passesThere
  exact ⟨.ok matching, stillAlike⟩

end Mirrored

end OData.Client
