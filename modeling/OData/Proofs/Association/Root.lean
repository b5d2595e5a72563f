/-
# Where bound entities lie

The path of an association request is made from the base path of the service as the
input fills it, and the address of the entity that it binds from the base path as it
is declared. As long as no template of the base path has a value, these agree. As
soon as one has, the address lies outside the root that the request itself is sent
to, and names the template instead of its value; only a value that is empty or begins
with a brace might hide the difference.
-/

import OData.Proofs.Association.Difference
import OData.Proofs.Association.Progress
import OData.Proofs.Target.Entity

namespace OData.Association

open Http (Request)
open Target (Site AssociationTarget)

/-- A target lies under the base path as the input fills it. -/
theorem basePath_prefix_of_associationTarget {site : Site} {function : Function}
    {input : Option Record} {target : AssociationTarget}
    (isTarget : site.associationTarget function input = .ok target) :
    (site.basePath input ++ "/").toList <+: target.target.toList := by
  obtain ⟨parts⟩ := Site.nonempty_linkParts_of_associationTarget isTarget
  rw [parts.isTarget]
  simp only [String.toList_append, List.append_assoc, List.prefix_append_right_inj]
  exact List.prefix_append _ _

section

variable {site : Site} {target : AssociationTarget} {bound : State} {desired : List String}
  {request : Request}

theorem target_prefix_of_mem_plan (isPlanned : request ∈ plan site target bound desired) :
    target.target.toList <+: request.target.toList := by
  rcases (mem_plan site target).mp isPlanned with ⟨key, -, rfl⟩ | ⟨key, -, rfl⟩
  · show _ <+: (target.target ++ site.endpoint.keySuffix key ++ "/" ++ referenceSegment).toList
    simp only [String.toList_append, List.append_assoc]
    exact List.prefix_append _ _
  · show _ <+: (target.target ++ "/" ++ referenceSegment).toList
    simp only [String.toList_append, List.append_assoc]
    exact List.prefix_append _ _

/-- The addresses in planned requests are those of wanted entities. -/
theorem named_of_mem_plan (isPlanned : request ∈ plan site target bound desired) {url : String}
    (isNamed : namedAddress? request = some url) :
    ∃ key ∈ desired, url = entityUrl site target key := by
  rcases (mem_plan site target).mp isPlanned with ⟨key, -, rfl⟩ | ⟨key, isLacking, rfl⟩
  · cases isNamed
  · rw [namedAddress?_bindRequest] at isNamed
    exact ⟨key, (mem_lacking.mp isLacking).1, (Option.some.inj isNamed).symm⟩

end

theorem root_prefix_entityUrl_iff (site : Site) (target : AssociationTarget) (key path : String) :
    (serviceRoot site.definition.scheme site.definition.host path).toList <+:
        (entityUrl site target key).toList ↔
      path.toList <+: site.definition.basePath.toList ++
        ("/" ++ target.collection ++ site.endpoint.keySuffix key).toList := by
  simp only [serviceRoot, entityUrl, Definition.root, String.toList_append, List.append_assoc,
    List.prefix_append_right_inj]

/-- Every association request is sent to a path under the filled base path, and every
address that one names keeps the templates of the base path open. If values begin
with something else than a brace, that address lies under the filled root only if no
template has a value at all. -/
theorem named_addresses_keep_templates {site : Site} {function : Function} {input : Option Record}
    {target : AssociationTarget}
    (isTarget : site.associationTarget function input = .ok target)
    (bound : State) (desired : List String) :
    let definition := site.definition
    ∀ request ∈ plan site target bound desired,
      (site.basePath input ++ "/").toList <+: request.target.toList ∧
        ∀ url, namedAddress? request = some url →
          (∃ key ∈ desired, url =
            definition.root ++ "/" ++ target.collection ++ site.endpoint.keySuffix key) ∧
          ((∀ name ∈ Target.parameters definition.basePath, ∀ value,
              Target.templateValue? input name = some value → Target.BeginsPlainly value.toList) →
            ((serviceRoot definition.scheme definition.host (site.basePath input)).toList <+:
                url.toList ↔
              ∀ name ∈ Target.parameters definition.basePath,
                Target.templateValue? input name = none)) := by
  intro definition request isPlanned
  refine ⟨(basePath_prefix_of_associationTarget isTarget).trans
    (target_prefix_of_mem_plan isPlanned), ?_⟩
  intro url isNamed
  obtain ⟨key, isDesired, rfl⟩ := named_of_mem_plan isPlanned isNamed
  refine ⟨⟨key, isDesired, rfl⟩, ?_⟩
  intro plain
  rw [root_prefix_entityUrl_iff]
  exact Target.substitute_prefix_iff plain _

/-- Contacts of an account, to be bound at the site that the caller names. -/
def addContacts : Function where
  name := "contacts"
  context := some "accounts"
  method := .associations .add
  input := {
    name := "input"
    fields := [
      { name := "entityId", type := .guid },
      { name := "boundIds", type := .guid, collectionName := some "contacts",
        navigation := some "rel", maxOccurs := some 0 }] }
  output := default

def contactAtSite : Record :=
  ⟨[("entityId", "e1"), ("boundIds", .list ["b"]), ("path", .record ⟨[("site", "s1")]⟩)]⟩

theorem bound_contact_outside_filled_root :
    let site : Site :=
      ⟨{ scheme := "https", host := "example.com", basePath := "/api/\x7bsite\x7d" }, {}⟩
    ∃ target, site.associationTarget addContacts (some contactAtSite) = .ok target ∧
      ∃ request ∈ plan site target .empty target.boundIds, ∃ url,
        "/api/s1/".toList <+: request.target.toList ∧ namedAddress? request = some url ∧
          url = "https://example.com/api/\x7bsite\x7d/contacts(b)" ∧
            ¬ "https://example.com/api/s1".toList <+: url.toList := by
  intro site
  have filled : site.basePath (some contactAtSite) = "/api/s1" := by decide +kernel
  have value : Target.templateValue? (some contactAtSite) "site" = some "s1" := rfl
  have isParameter : Target.parameters site.definition.basePath = ["site"] := by decide +kernel
  let target : AssociationTarget :=
    ⟨site.basePath (some contactAtSite) ++ "/" ++ "accounts" ++ "(e1)" ++ "/" ++ "rel",
      "contacts", "rel", ["b"]⟩
  have isTarget : site.associationTarget addContacts (some contactAtSite) = .ok target := rfl
  have isPlanned : bindRequest site target "b" ∈ plan site target .empty ["b"] :=
    List.mem_singleton.mpr rfl
  have isNamed := namedAddress?_bindRequest site target "b"
  obtain ⟨isUnder, addressed⟩ :=
    named_addresses_keep_templates isTarget .empty ["b"] _ isPlanned
  obtain ⟨-, lies⟩ := addressed _ isNamed
  rw [filled] at isUnder lies
  have plain : ∀ name ∈ Target.parameters site.definition.basePath, ∀ value,
      Target.templateValue? (some contactAtSite) name = some value →
        Target.BeginsPlainly value.toList := by
    rw [isParameter]
    intro name isMember text isText
    obtain rfl := List.mem_singleton.mp isMember
    cases value.symm.trans isText
    exact ⟨'s', ['1'], rfl, by decide⟩
  refine ⟨target, isTarget, _, isPlanned, _, isUnder, isNamed, rfl, fun isPrefix => ?_⟩
  have missing := (lies plain).mp isPrefix "site" (isParameter ▸ List.mem_cons_self)
  cases value.symm.trans missing

end OData.Association
