/-
# Services found by their ids

The id of a service is the id of its client, a mark, and the qualified name of its
function, one behind the other. To find the service the id is cut at the first mark,
and of the services of that client the first one with this id is taken. So the id of
a client must not bring a mark along, not even the beginning of one that the next
characters complete; and contexts and names may hold the point that stands between
them, so that different functions can come to share an id. Nothing else can keep a
service from being found.
-/

import OData.Client.Directory
import OData.Proofs.Outcome
import OData.Proofs.Text.Search

namespace OData

namespace Catalogue

variable {clientId otherId : String} {function other : Function}

/-- In what begins with the id of a client, the first mark is the one behind it. The
last character of that mark does not matter, since a mark has to end before it to be
another one. -/
def EndsAtMark (clientId : String) : Prop :=
  Text.occursIn idMark.toList (clientId ++ ".services").toList = false

instance (clientId : String) : Decidable (EndsAtMark clientId) :=
  inferInstanceAs (Decidable (_ = _))

theorem cut?_serviceId_iff :
    Text.cut? idMark (serviceId clientId function) = some (clientId, function.qualifiedName) ↔
      EndsAtMark clientId := by
  have isFront : idMark.toList.dropLast = ".services".toList := by decide
  rw [serviceId, Text.cut?_append_iff (by decide), isFront, EndsAtMark, String.toList_append]

/-- Where the id of a service is cut behind the client, its qualified name is left. -/
theorem qualifiedName_of_cut? {rest : String}
    (isCut : Text.cut? idMark (serviceId clientId function) = some (clientId, rest)) :
    rest = function.qualifiedName :=
  ((String.append_right_inj _).mp (Text.eq_of_cut? isCut)).symm

theorem serviceId_inj : serviceId clientId function = serviceId clientId other ↔
    function.qualifiedName = other.qualifiedName :=
  String.append_right_inj _

/-- Clients whose ids bring no mark along share no service. -/
theorem eq_of_serviceId (ends : EndsAtMark clientId) (otherEnds : EndsAtMark otherId)
    (same : serviceId clientId function = serviceId otherId other) :
    clientId = otherId ∧ function.qualifiedName = other.qualifiedName := by
  have isCut : Text.cut? idMark (serviceId clientId function) =
      some (clientId, function.qualifiedName) := cut?_serviceId_iff.mpr ends
  rw [same, cut?_serviceId_iff.mpr otherEnds] at isCut
  obtain ⟨sameId, sameName⟩ := Prod.mk.inj (Option.some.inj isCut)
  exact ⟨sameId.symm, sameName.symm⟩

end Catalogue

namespace Client

open Catalogue (EndsAtMark idMark serviceId)

namespace Directory

/-! ## Clients by id -/

/-- A directory of clients that were described in settings or added later. -/
inductive IsMade (world : World) : Directory → Prop
  | ofSettings {settings : Settings} {directory : Directory}
      (isOk : ofSettings world settings = .ok directory) : IsMade world directory
  | insert {directory : Directory} (isMade : IsMade world directory) (client : Client) :
      IsMade world (directory.insert client)

/-- Clients stand under their own ids. -/
def Keyed (directory : Directory) : Prop :=
  ∀ entry ∈ directory.clients, entry.1 = entry.2.id

theorem of_mem_put {name : String} {client : Client} {clients : List (String × Client)}
    {entry : String × Client} (isMember : entry ∈ put name client clients) :
    entry = (name, client) ∨ entry ∈ clients := by
  induction clients with
  | nil => exact .inl (List.mem_singleton.mp isMember)
  | cons first rest ih =>
      obtain ⟨other, kept⟩ := first
      rw [put] at isMember
      split at isMember
      · exact (List.mem_cons.mp isMember).imp_right (List.mem_cons_of_mem _)
      · split at isMember
        · exact List.mem_cons.mp isMember
        · rcases List.mem_cons.mp isMember with rfl | isMember
          · exact .inr List.mem_cons_self
          · exact (ih isMember).imp_right (List.mem_cons_of_mem _)

theorem Keyed.insert {directory : Directory} (keyed : directory.Keyed) (client : Client) :
    (directory.insert client).Keyed := by
  intro entry isMember
  rcases of_mem_put isMember with rfl | isMember
  · rfl
  · exact keyed entry isMember

theorem keyed_ofSettings {world : World} {settings : Settings} {directory : Directory}
    (isOk : Directory.ofSettings world settings = .ok directory) : directory.Keyed := by
  refine kept_of_foldlM_ok ?_ isOk fun _ isMember => absurd isMember List.not_mem_nil
  intro before entry _ after isAfter keyed
  cases isClient : world.client settings.monitoring entry.1 entry.2 with
  | error fault =>
      rw [isClient] at isAfter
      cases isAfter
  | ok client =>
      rw [isClient] at isAfter
      cases isAfter
      exact keyed.insert client

theorem IsMade.keyed {world : World} {directory : Directory} (isMade : directory.IsMade world) :
    directory.Keyed := by
  induction isMade with
  | ofSettings isOk => exact keyed_ofSettings isOk
  | insert _ client ih => exact ih.insert client

/-- A client that is found under an id has that id. -/
theorem Keyed.id_eq {directory : Directory} (keyed : directory.Keyed) {name : String}
    {client : Client} (isRegistered : directory.client name = .ok client) : client.id = name := by
  unfold Directory.client at isRegistered
  split at isRegistered
  · rename_i entry found
    cases isRegistered
    have sameName := List.find?_some found
    rw [← keyed entry (List.mem_of_find?_eq_some found)]
    exact eq_of_beq sameName
  · cases isRegistered

/-! ## Services by id -/

section

variable {directory : Directory} {client : Client} {definition : Definition}

/-- Services are listed under ids of their own functions. -/
theorem id_of_listed {name : String} {listed : List ServiceDescriptor} (keyed : directory.Keyed)
    (isListed : directory.services name = .ok listed) {descriptor : ServiceDescriptor}
    (isMember : descriptor ∈ listed) : descriptor.id = serviceId name descriptor.function := by
  obtain ⟨client, isRegistered, isListed⟩ := exists_of_bind_ok isListed
  split at isListed
  · cases isListed
    obtain ⟨function, -, rfl⟩ := List.mem_map.mp isMember
    rw [← keyed.id_eq isRegistered]
    rfl
  · cases isListed

theorem services_of_definition {name : String} (isRegistered : directory.client name = .ok client)
    (isDefinition : client.resolve [] = .ok definition) :
    directory.services name =
      .ok (Catalogue.services client.id definition client.entitySets) := by
  simp only [Directory.services, isRegistered, bind, Except.bind, isDefinition, pure, Except.pure]

/-- The service of an id is looked for with the client in front of the first mark. -/
theorem service_of_cut? {name rest id : String} (isCut : Text.cut? idMark id = some (name, rest))
    (isRegistered : directory.client name = .ok client)
    (isDefinition : client.resolve [] = .ok definition) (descriptor : ServiceDescriptor) :
    directory.service id = .ok (client, descriptor) ↔
      (Catalogue.services client.id definition client.entitySets).find?
        (fun service => service.id == id) = some descriptor := by
  simp only [Directory.service, isCut, isRegistered,
    services_of_definition isRegistered isDefinition, bind, Except.bind]
  cases (Catalogue.services client.id definition client.entitySets).find?
      fun service => service.id == id with
  | none => exact ⟨fun found => (by cases found), fun found => (by cases found)⟩
  | some found => simp [pure, Except.pure]

/-- Whatever is found was looked for with the client in front of the first mark. -/
theorem cut?_of_service {id : String} {descriptor : ServiceDescriptor} (keyed : directory.Keyed)
    (found : directory.service id = .ok (client, descriptor)) :
    ∃ rest, Text.cut? idMark id = some (client.id, rest) := by
  unfold Directory.service at found
  split at found
  · cases found
  · rename_i name rest isCut
    obtain ⟨other, isRegistered, found⟩ := exists_of_bind_ok found
    obtain ⟨services, -, found⟩ := exists_of_bind_ok found
    split at found
    · cases found
      exact ⟨rest, keyed.id_eq isRegistered ▸ isCut⟩
    · cases found

end

/-- Among services with different functions, one is the first of its id exactly if those
in front of it have other qualified names. -/
theorem find?_id_iff {clientId : String} {definition : Definition}
    {functions : List Function}
    (distinct : (functions.map fun function => (function.context, function.name)).Nodup)
    {before after : List ServiceDescriptor} {descriptor : ServiceDescriptor}
    (isListed : functions.map (Catalogue.describe clientId definition) =
      before ++ descriptor :: after) :
    (before ++ descriptor :: after).find? (fun service => service.id == descriptor.id) =
        some descriptor ↔
      ∀ other ∈ before, other.function.qualifiedName ≠ descriptor.function.qualifiedName := by
  obtain ⟨first, others, rfl, rfl, isRest⟩ := List.map_eq_append_iff.mp isListed
  obtain ⟨function, rest, rfl, rfl, rfl⟩ := List.map_eq_cons_iff.mp isRest
  have sameId (other : Function) :
      ((Catalogue.describe clientId definition other).id ==
        (Catalogue.describe clientId definition function).id) =
      (other.qualifiedName == function.qualifiedName) := by
    rw [Bool.eq_iff_iff, beq_iff_eq, beq_iff_eq]
    exact Catalogue.serviceId_inj
  constructor
  · intro found other isMember sameName
    obtain ⟨other, isFirst, rfl⟩ := List.mem_map.mp isMember
    -- The service in front would be found instead, and it has another function.
    have hasHit : ((first.map (Catalogue.describe clientId definition)).find? fun service =>
        service.id == (Catalogue.describe clientId definition function).id).isSome :=
      List.find?_isSome.mpr ⟨_, isMember, (sameId other).trans (beq_iff_eq.mpr sameName)⟩
    obtain ⟨hit, isHit⟩ := Option.isSome_iff_exists.mp hasHit
    rw [List.find?_append, isHit, Option.some_or] at found
    obtain rfl := Option.some.inj found
    obtain ⟨same, isThere, isSame⟩ := List.mem_map.mp (List.mem_of_find?_eq_some isHit)
    have sameFunction : same = function := congrArg ServiceDescriptor.function isSame
    rw [List.map_append, List.nodup_append] at distinct
    exact distinct.2.2 _ (List.mem_map_of_mem isThere) _ List.mem_cons_self
      (by rw [sameFunction])
  · intro others
    have absent : (first.map (Catalogue.describe clientId definition)).find?
        (fun service => service.id ==
          (Catalogue.describe clientId definition function).id) = none := by
      rw [List.find?_eq_none]
      intro other isMember
      obtain ⟨other, isFirst, rfl⟩ := List.mem_map.mp isMember
      rw [sameId, beq_iff_eq]
      exact others _ isMember
    rw [List.find?_append, absent, Option.none_or, List.find?_cons_of_pos]
    exact beq_self_eq_true _

/-- A service that a client lists is found under its id exactly if the first mark in that
id is the one behind the client's id, and no service listed before has the same qualified
name. Clients whose ids bring no mark along share no id of a service. -/
theorem service_of_listed_iff {world : World} {directory : Directory}
    (isMade : directory.IsMade world) {name : String} {client : Client} {definition : Definition}
    (isRegistered : directory.client name = .ok client)
    (isDefinition : client.resolve [] = .ok definition)
    (distinct : ((definition.functions.filter (Catalogue.isExposed client.entitySets)).map
      fun function => (function.context, function.name)).Nodup) :
    ∃ listed, directory.services name = .ok listed ∧
      (∀ before descriptor after, listed = before ++ descriptor :: after →
        (directory.service descriptor.id = .ok (client, descriptor) ↔
          EndsAtMark name ∧ ∀ other ∈ before,
            other.function.qualifiedName ≠ descriptor.function.qualifiedName)) ∧
      ∀ otherName otherListed, directory.services otherName = .ok otherListed →
        EndsAtMark name → EndsAtMark otherName →
          ∀ descriptor ∈ listed, ∀ other ∈ otherListed, descriptor.id = other.id →
            name = otherName ∧
              descriptor.function.qualifiedName = other.function.qualifiedName := by
  have keyed := isMade.keyed
  have isListed := services_of_definition isRegistered isDefinition
  refine ⟨_, isListed, ?_, ?_⟩
  · intro before descriptor after isSplit
    have isMember : descriptor ∈
        Catalogue.services client.id definition client.entitySets := by
      rw [isSplit]
      exact List.mem_append_right _ List.mem_cons_self
    have isId := id_of_listed keyed isListed isMember
    have isFirst_iff : ∀ rest, Text.cut? idMark descriptor.id = some (name, rest) →
        (directory.service descriptor.id = .ok (client, descriptor) ↔
          ∀ other ∈ before,
            other.function.qualifiedName ≠ descriptor.function.qualifiedName) := by
      intro rest isCut
      rw [service_of_cut? isCut isRegistered isDefinition, isSplit]
      exact find?_id_iff distinct isSplit
    constructor
    · intro found
      obtain ⟨rest, isCut⟩ := cut?_of_service keyed found
      rw [keyed.id_eq isRegistered] at isCut
      refine ⟨?_, (isFirst_iff rest isCut).mp found⟩
      rw [isId] at isCut
      exact Catalogue.cut?_serviceId_iff.mp (Catalogue.qualifiedName_of_cut? isCut ▸ isCut)
    · rintro ⟨ends, areOthers⟩
      refine (isFirst_iff descriptor.function.qualifiedName ?_).mpr areOthers
      rw [isId]
      exact Catalogue.cut?_serviceId_iff.mpr ends
  · intro otherName otherListed otherIsListed ends otherEnds descriptor isMember other
      isOther same
    rw [id_of_listed keyed isListed isMember, id_of_listed keyed otherIsListed isOther] at same
    exact Catalogue.eq_of_serviceId ends otherEnds same

/-- All accounts. -/
def listAccounts : Function where
  name := "list"
  context := some "accounts"
  method := .get
  input := default
  output := default

/-- A client that exposes accounts, under an id that holds a mark itself. -/
def markedClient : Client where
  id := "a.services.b"
  endpoint := {}
  resolve _ := .ok {
    scheme := "https"
    host := "example.com"
    basePath := "/odata"
    functions := [listAccounts] }
  transport _ _ := .ok ⟨204, .empty, none⟩
  authenticator := none
  amendment := none
  registry := none
  entitySets := ["accounts"]
  monitoring := {}

/-- Its service is looked for with a client of a shorter id. -/
theorem service_of_marked_client_not_found :
    let directory : Directory := .insert ⟨[]⟩ markedClient
    ∃ descriptor, directory.services "a.services.b" = .ok [descriptor] ∧
      descriptor.id = "a.services.b.services.accounts.list" ∧
      directory.service descriptor.id ≠ .ok (markedClient, descriptor) := by
  intro directory
  let world : World := ⟨fun _ => .missing, fun _ => none, fun _ _ => .ok ⟨204, .empty, none⟩⟩
  have isEmpty : Directory.ofSettings world {} = .ok ⟨[]⟩ := rfl
  have isMade : directory.IsMade world := .insert (.ofSettings isEmpty) markedClient
  have isRegistered : directory.client "a.services.b" = .ok markedClient := rfl
  obtain ⟨listed, isListed, found, -⟩ :=
    service_of_listed_iff isMade isRegistered rfl (by decide)
  obtain rfl : [Catalogue.describe "a.services.b" _ listAccounts] = listed :=
    Except.ok.inj isListed
  refine ⟨_, isListed, rfl, fun isFound => ?_⟩
  obtain ⟨ends, -⟩ := (found [] _ [] rfl).mp isFound
  exact absurd ends (by decide)

end Directory

end Client

end OData
