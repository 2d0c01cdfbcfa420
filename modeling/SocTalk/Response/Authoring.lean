import Mathlib.Data.List.Dedup
import SocTalk.Response.Playbook
import SocTalk.TriagePolicy.Authoring

/-! Tenant-authored response playbooks: their validation, and the log of their revisions. -/
namespace SocTalk.Response
open Py TriagePolicy
open Provisioning.Configuration (PolicyRevision PolicyStatus latestRevision getAuthored
  setAuthoredStatus retireAuthored)

/-- A definition as an author hands it in; its status is forced to shadow. -/
def validateAuthored (raw : Dict) : Except Invalid ResponsePlaybook := do
  refuse (maxAuthoredBytes < jsonLength (.dict raw)) "definition exceeds 65536 bytes"
  let pb ← orSchema (ResponsePlaybook.modelValidate (Dict.set raw "status" (.str "shadow")))
  refuse (!isSlug pb.id) ("id must be a slug: lowercase letters, digits, hyphens " ++
    "(^[a-z0-9][a-z0-9-]\x7b0,127\x7d$)")
  return pb

/-- A row of `authored_response_playbook_revisions`, under the id that its definition names. -/
structure Revision where
  row : PolicyRevision Dict
  named : row.definition.lookup "id" = some (.str row.policy)

/-- The revisions of one tenant. -/
abbrev AuthoredLog := List Revision

def AuthoredLog.rows (log : AuthoredLog) : List (PolicyRevision Dict) := log.map Revision.row

/-! ## The writers -/

/-- The revision that `upsert_authored` appends. -/
def upsertAuthored (tenantId : String) (log : AuthoredLog) (definition : Dict)
    (status : PolicyStatus) : Except Invalid Revision := do
  refuse (status ≠ .draft ∧ status ≠ .shadow) "new/edited status must be 'draft' or 'shadow'"
  let pb ← validateAuthored (Dict.set definition "tenant" (.str tenantId))
  let revision := ((latestRevision log.rows pb.id).map (·.revision)).getD 0 + 1
  return ⟨⟨pb.id, revision, status, pb.dump⟩, rfl⟩

theorem named_of_latest {log : AuthoredLog} {policy : String} {row : PolicyRevision Dict}
    (h : latestRevision log.rows policy = some row) :
    row.policy = policy ∧ row.definition.lookup "id" = some (.str policy) := by
  have hmem := List.argmax_mem h
  obtain ⟨hlog, hid⟩ := List.mem_filter.mp hmem
  obtain ⟨revision, -, rfl⟩ := List.mem_map.mp hlog
  have hpolicy : revision.row.policy = policy := by simpa using hid
  exact ⟨hpolicy, hpolicy ▸ revision.named⟩

theorem named_of_getAuthored {log : AuthoredLog} {policy : String} {row : PolicyRevision Dict}
    (h : getAuthored log.rows policy = some row) :
    row.definition.lookup "id" = some (.str policy) :=
  (named_of_latest (Option.filter_eq_some_iff.mp h).1).2

theorem named_setAuthoredStatus {valid : Dict → Bool} {log : AuthoredLog} {policy : String}
    {active : Bool} {row : PolicyRevision Dict}
    (h : setAuthoredStatus valid log.rows policy active = some row) :
    row.definition.lookup "id" = some (.str row.policy) := by
  obtain ⟨latest, hlatest, h⟩ := Option.bind_eq_some_iff.mp h
  split at h
  · cases h
  · have hnamed := named_of_getAuthored hlatest
    cases h
    exact hnamed

theorem named_retireAuthored {log : AuthoredLog} {policy : String} {row : PolicyRevision Dict}
    (h : retireAuthored log.rows policy = some row) :
    row.definition.lookup "id" = some (.str row.policy) := by
  obtain ⟨latest, hlatest, h⟩ := Option.map_eq_some_iff.mp h
  have hnamed := named_of_getAuthored hlatest
  cases h
  exact hnamed

/-- A request on a tenant's playbooks. -/
inductive AuthoringRequest where
  | upsert (definition : Dict) (status : PolicyStatus)
  | setStatus (playbook : String) (active : Bool)
  | retire (playbook : String)

def isValid (definition : Dict) : Bool := (validateAuthored definition).isOk

/-- The log after a request; a refused one appends nothing. -/
def AuthoredLog.serve (tenantId : String) (log : AuthoredLog) : AuthoringRequest → AuthoredLog
  | .upsert definition status =>
    match upsertAuthored tenantId log definition status with
    | .ok revision => log ++ [revision]
    | .error _ => log
  | .setStatus playbook active =>
    match h : setAuthoredStatus isValid log.rows playbook active with
    | some row => log ++ [⟨row, named_setAuthoredStatus h⟩]
    | none => log
  | .retire playbook =>
    match h : retireAuthored log.rows playbook with
    | some row => log ++ [⟨row, named_retireAuthored h⟩]
    | none => log

/-! ## Reading -/

/-- The latest revision of each playbook that is not retired. -/
def listAuthored (log : AuthoredLog) : List (PolicyRevision Dict) :=
  (latestRevisions log.rows).filter (·.status ≠ .retired)

theorem mem_listAuthored {log : AuthoredLog} {row : PolicyRevision Dict} :
    row ∈ listAuthored log ↔ latestRevision log.rows row.policy = some row ∧
      row.status ≠ .retired := by
  unfold listAuthored
  rw [List.mem_filter]
  constructor
  · intro ⟨hlatest, hretired⟩
    exact ⟨(of_latestRevisions hlatest).2, by simpa using hretired⟩
  · intro ⟨hlatest, hretired⟩
    have hlog := (List.mem_filter.mp (List.argmax_mem hlatest)).1
    refine ⟨List.mem_filterMap.mpr ⟨row.policy, ?_, hlatest⟩, by simpa using hretired⟩
    rw [List.mem_insertionSort, List.mem_dedup]
    exact List.mem_map_of_mem hlog

/-- What a definition names is its own id. -/
theorem id_of_validateAuthored {raw : Dict} {pb : ResponsePlaybook} {id : String}
    (h : validateAuthored raw = .ok pb) (hid : raw.lookup "id" = some (.str id)) : pb.id = id := by
  obtain ⟨_, -, h⟩ := (bind_eq_ok _ _ _).mp h
  obtain ⟨q, hschema, h⟩ := (bind_eq_ok _ _ _).mp h
  obtain ⟨_, -, h⟩ := (bind_eq_ok _ _ _).mp h
  cases (pure_eq_ok _ _).mp h
  have hlookup := id_of_modelValidate (orSchema_eq_ok hschema)
  rw [Dict.lookup_set_of_ne _ _ (by decide), hid] at hlookup
  simpa using hlookup.symm

end SocTalk.Response
