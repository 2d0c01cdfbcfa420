import SocTalk.Projection.Replay

/-! The customer's view of an investigation: what `get_case_tenant` answers after any reads by
either audience, and how far it depends on the events that are for the provider only. -/
namespace SocTalk.Projection

inductive Audience where
  | mssp
  | customer
  deriving DecidableEq

/-- The settings of a database session that the row policies read. -/
structure Session where
  current_tenant_id : Option ℕ
  current_audience : Audience

/-- The `USING` clause of the tables with a visibility column. -/
def Session.audiencePolicy (s : Session) (tenant_id : ℕ) (visibility : Visibility) : Bool :=
  (s.current_tenant_id.isNone && s.current_audience = .mssp) ||
    (s.current_tenant_id = some tenant_id &&
      (visibility = .customer_safe || visibility = .system || s.current_audience = .mssp))

/-- The `USING` clause of the tables without one. -/
def Session.isolationPolicy (s : Session) (tenant_id : ℕ) : Bool :=
  (s.current_tenant_id.isNone && s.current_audience = .mssp) || s.current_tenant_id = some tenant_id

structure Investigation where
  id : ℕ
  tenant_id : ℕ
  visibility : Visibility
  short_id : String
  title : String
  status : String
  severity : ℤ
  opened_at : ℕ
  closed_at : Option ℕ
  summary : Option String

/-- The rows of one investigation; its events carry its tenant. -/
structure Case where
  investigation : Investigation
  events : List Event := []
  facts : Option Facts := none

inductive HttpError where
  | notFound
  | internalError

structure CaseDetail where
  row : Investigation
  facts : Facts

structure CustomerCaseDetail where
  id : ℕ
  short_id : String
  title : String
  status : String
  severity : ℤ
  opened_at : ℕ
  closed_at : Option ℕ
  summary : Option String
  timeline_summary : List TimelineEntry

/-- The settings on entry to `tenant_context`; leaving it resets no setting. -/
def tenant_context (tenant_id : ℕ) : Session := ⟨some tenant_id, .mssp⟩

/-- The detail, the rows afterwards and the session afterwards. The links and the run that the
handler loads as well do not depend on the events. -/
def case_detail (c : Case) (session : Session) (tenant_filter : Option ℕ) :
    Except HttpError (CaseDetail × Case × Session) :=
  let row := c.investigation
  if !session.audiencePolicy row.tenant_id row.visibility then .error .notFound
  else if tenant_filter.any (row.tenant_id ≠ ·) then .error .notFound
  else
    let session := tenant_context row.tenant_id
    let events := c.events.filter fun e => session.audiencePolicy row.tenant_id e.visibility
    match consume_new_events events (c.facts.filter fun _ => session.isolationPolicy row.tenant_id) with
    | .error _ => .error .internalError
    | .ok (facts, _) =>
      let facts_row := facts.filter fun _ => session.isolationPolicy row.tenant_id
      .ok (⟨row, load_facts facts_row⟩, { c with facts }, session)

def get_case_tenant (c : Case) (session : Session) (identity_tenant_id : Option ℕ) :
    Except HttpError CustomerCaseDetail :=
  match case_detail c session identity_tenant_id with
  | .error e => .error e
  | .ok (full, _, _) =>
    .ok { id := full.row.id, short_id := full.row.short_id, title := full.row.title
          status := full.row.status, severity := full.row.severity
          opened_at := full.row.opened_at, closed_at := full.row.closed_at
          summary := full.row.summary, timeline_summary := full.facts.timeline_summary }

/-! ## What happens to a case -/

/-- An event is appended, or somebody reads the detail. -/
inductive Access where
  | append (e : Event)
  | read (session : Session) (tenant_filter : Option ℕ)

/-- A read that raises is rolled back. -/
def Case.step (c : Case) : Access → Case
  | .append e => { c with events := c.events ++ [e] }
  | .read session tenant_filter =>
    match case_detail c session tenant_filter with
    | .ok (_, c', _) => c'
    | .error _ => c

def Case.run (c : Case) (accesses : List Access) : Case := accesses.foldl Case.step c

def Access.event? : Access → Option Event
  | .append e => some e
  | .read _ _ => none

/-- The event log that the accesses leave. -/
def log (accesses : List Access) : List Event := accesses.filterMap Access.event?

/-- The facts are those of a prefix of the log. -/
def Case.Follows (c : Case) : Prop :=
  ∃ pre post, c.events = pre ++ post ∧ FoldsAll [] pre ∧ Projects pre (load_facts c.facts)

theorem filter_tenant_context (tenant_id : ℕ) (events : List Event) :
    events.filter (fun e => (tenant_context tenant_id).audiencePolicy tenant_id e.visibility) =
      events := by
  refine List.filter_eq_self.mpr fun e _ => ?_
  simp [Session.audiencePolicy, tenant_context]

theorem facts_tenant_context (tenant_id : ℕ) (facts : Option Facts) :
    facts.filter (fun _ => (tenant_context tenant_id).isolationPolicy tenant_id) = facts := by
  cases facts <;> simp [Session.isolationPolicy, tenant_context]

/-- Whether the session finds the row. -/
def Investigation.Found (row : Investigation) (session : Session) (tenant_filter : Option ℕ) : Prop :=
  session.audiencePolicy row.tenant_id row.visibility = true ∧
    tenant_filter.any (row.tenant_id ≠ ·) = false

variable {c : Case} {session : Session} {tenant_filter : Option ℕ}

theorem case_detail_found (hf : c.investigation.Found session tenant_filter) :
    case_detail c session tenant_filter =
      match consume_new_events c.events c.facts with
      | .error _ => .error .internalError
      | .ok (facts, _) =>
        .ok (⟨c.investigation, load_facts facts⟩, { c with facts },
          tenant_context c.investigation.tenant_id) := by
  unfold case_detail
  simp only [hf.1, hf.2, filter_tenant_context, facts_tenant_context]
  rfl

theorem case_detail_not_found (hf : ¬c.investigation.Found session tenant_filter) :
    case_detail c session tenant_filter = .error .notFound := by
  unfold case_detail
  by_cases hp : session.audiencePolicy c.investigation.tenant_id c.investigation.visibility = true
  · have hfilter : tenant_filter.any (c.investigation.tenant_id ≠ ·) = true := by
      by_contra hfalse
      exact hf ⟨hp, by simpa using hfalse⟩
    simp only [hp, hfilter]
    rfl
  · simp only [hp]
    rfl

/-- A read folds the whole log, or raises and leaves the case. -/
theorem read_spec (hf : c.investigation.Found session tenant_filter) (hc : c.Follows)
    (hord : Ordered c.events) :
    (FoldsAll [] c.events → ∃ facts, Projects c.events (load_facts facts) ∧
      case_detail c session tenant_filter =
        .ok (⟨c.investigation, load_facts facts⟩, { c with facts },
          tenant_context c.investigation.tenant_id)) ∧
    (¬FoldsAll [] c.events → case_detail c session tenant_filter = .error .internalError) := by
  obtain ⟨pre, post, hevents, hpre, hp⟩ := hc
  rw [case_detail_found hf]
  rw [hevents] at hord ⊢
  have hspec := consume_spec hp hord
  constructor
  · intro hall
    obtain ⟨facts, n, hok, -, hp'⟩ := hspec.1 (foldsAll_append.mp hall).2
    exact ⟨facts, hp', by rw [hok]⟩
  · intro hnot
    cases hok : consume_new_events (pre ++ post) c.facts with
    | error e => rfl
    | ok r => exact absurd (foldsAll_append.mpr ⟨hpre, hspec.2 ⟨r, hok⟩⟩) hnot

theorem Case.Follows.step (hc : c.Follows) {a : Access} (hord : Ordered (c.step a).events) :
    (c.step a).Follows := by
  cases a with
  | append e =>
    obtain ⟨pre, post, hevents, hpre, hp⟩ := hc
    refine ⟨pre, post ++ [e], ?_, hpre, hp⟩
    show c.events ++ [e] = _
    rw [hevents, List.append_assoc]
  | read session tenant_filter =>
    by_cases hf : c.investigation.Found session tenant_filter
    · have hsame : (c.step (.read session tenant_filter)).events = c.events := by
        simp only [Case.step, case_detail_found hf]
        cases consume_new_events c.events c.facts <;> rfl
      rw [hsame] at hord
      have hspec := read_spec hf hc hord
      by_cases hall : FoldsAll [] c.events
      · obtain ⟨facts, hp, hok⟩ := hspec.1 hall
        have hstep : c.step (.read session tenant_filter) = { c with facts } := by
          simp only [Case.step, hok]
        rw [hstep]
        exact ⟨c.events, [], by simp, hall, hp⟩
      · have hstep : c.step (.read session tenant_filter) = c := by
          simp only [Case.step, hspec.2 hall]
        rwa [hstep]
    · have hstep : c.step (.read session tenant_filter) = c := by
        simp only [Case.step, case_detail_not_found hf]
      rwa [hstep]

theorem investigation_step (c : Case) (a : Access) : (c.step a).investigation = c.investigation := by
  cases a with
  | append e => rfl
  | read session tenant_filter =>
    by_cases hf : c.investigation.Found session tenant_filter
    · simp only [Case.step, case_detail_found hf]
      cases consume_new_events c.events c.facts <;> rfl
    · simp only [Case.step, case_detail_not_found hf]

theorem events_step (c : Case) (a : Access) :
    (c.step a).events = c.events ++ a.event?.toList := by
  cases a with
  | append e => rfl
  | read session tenant_filter =>
    rw [Access.event?, Option.toList_none, List.append_nil]
    by_cases hf : c.investigation.Found session tenant_filter
    · simp only [Case.step, case_detail_found hf]
      cases consume_new_events c.events c.facts <;> rfl
    · simp only [Case.step, case_detail_not_found hf]

theorem Ordered.of_append {xs ys : List Event} (h : Ordered (xs ++ ys)) : Ordered xs :=
  ⟨(List.pairwise_append.mp h.1).1, fun e he => h.2 e (List.mem_append_left _ he)⟩

/-- After any accesses the case has its row, its log and the facts of a prefix of the log. -/
theorem run_spec (hc : c.Follows) (accesses : List Access)
    (hord : Ordered (c.events ++ log accesses)) :
    (c.run accesses).investigation = c.investigation ∧
      (c.run accesses).events = c.events ++ log accesses ∧ (c.run accesses).Follows := by
  induction accesses generalizing c with
  | nil => exact ⟨rfl, by simp [Case.run, log], hc⟩
  | cons a accesses ih =>
    have hlog : c.events ++ log (a :: accesses) = (c.step a).events ++ log accesses := by
      rw [events_step, List.append_assoc]
      cases ha : a.event? <;> simp [log, ha]
    rw [hlog] at hord ⊢
    have hrest := ih (hc.step hord.of_append) hord
    rwa [investigation_step] at hrest

/-! ## The two-run property -/

/-- An entry without its sequence number. -/
def TimelineEntry.shown (t : TimelineEntry) : Py.Value × Py.Value × Py.Value :=
  (t.ts, t.summary, t.source_event_id)

/-- What a customer of the tenant is answered, sequence numbers aside. -/
def customerView (c : Case) (tenant_id : ℕ) :
    Except HttpError (CustomerCaseDetail × List (Py.Value × Py.Value × Py.Value)) :=
  match get_case_tenant c ⟨some tenant_id, .customer⟩ (some tenant_id) with
  | .error e => .error e
  | .ok detail =>
    .ok ({ detail with timeline_summary := [] }, detail.timeline_summary.map TimelineEntry.shown)

/-- What a customer may know of a log. -/
def customerPart (log : List Event) : List (String × Py.Dict × Visibility) :=
  (log.filter fun e => e.visibility ≠ .mssp_only).map fun e => (e.kind, e.payload, e.visibility)

/-- Two histories of one investigation that differ in provider-only events and in the reads. -/
structure Variants where
  investigation : Investigation
  first : List Access
  second : List Access
  firstOrdered : Ordered (log first)
  secondOrdered : Ordered (log second)
  alike : customerPart (log first) = customerPart (log second)

/-- The case once the accesses have happened to it. -/
def Variants.after (v : Variants) (accesses : List Access) : Case :=
  Case.run { investigation := v.investigation } accesses

/-- The last timeline events of a log, without their sequence numbers. -/
def shownTimeline (log : List Event) : List (Py.Value × Py.Value × Py.Value) :=
  (timeline log).map TimelineEntry.shown

theorem found_customer_iff (row : Investigation) (tenant_id : ℕ) :
    row.Found ⟨some tenant_id, .customer⟩ (some tenant_id) ↔
      row.tenant_id = tenant_id ∧ row.visibility ≠ .mssp_only := by
  unfold Investigation.Found Session.audiencePolicy
  by_cases ht : row.tenant_id = tenant_id
  · cases row.visibility <;> simp [ht]
  · have hpolicy : tenant_id ≠ row.tenant_id := fun heq => ht heq.symm
    simp [ht, hpolicy]

/-- The response without its timeline. -/
def Investigation.header (row : Investigation) : CustomerCaseDetail where
  id := row.id
  short_id := row.short_id
  title := row.title
  status := row.status
  severity := row.severity
  opened_at := row.opened_at
  closed_at := row.closed_at
  summary := row.summary
  timeline_summary := []

theorem follows_start (row : Investigation) : Case.Follows { investigation := row } :=
  ⟨[], [], rfl, trivial, projects_nil⟩

/-- The customer sees the row and the window of the timeline, whoever folded the events; an event
that the reducer raises on takes the whole answer away. -/
theorem customerView_spec (v : Variants) {accesses : List Access} (hord : Ordered (log accesses))
    {tenant_id : ℕ} (hf : v.investigation.Found ⟨some tenant_id, .customer⟩ (some tenant_id)) :
    (FoldsAll [] (log accesses) → customerView (v.after accesses) tenant_id =
      .ok (v.investigation.header, shownTimeline (log accesses))) ∧
    (¬FoldsAll [] (log accesses) →
      customerView (v.after accesses) tenant_id = .error .internalError) := by
  obtain ⟨hrow, hevents, hfollows⟩ : (v.after accesses).investigation = v.investigation ∧
      (v.after accesses).events = [] ++ log accesses ∧ (v.after accesses).Follows :=
    run_spec (follows_start v.investigation) accesses (by simpa using hord)
  rw [List.nil_append] at hevents
  rw [← hrow] at hf
  have hspec := read_spec hf hfollows (by rwa [hevents])
  rw [hevents] at hspec
  constructor
  · intro hall
    obtain ⟨facts, hp, hok⟩ := hspec.1 hall
    simp only [customerView, get_case_tenant, hok, hp.timeline, hrow, shownTimeline]
    rfl
  · intro hnot
    simp only [customerView, get_case_tenant, hspec.2 hnot]

theorem customerView_not_found (v : Variants) {accesses : List Access}
    (hord : Ordered (log accesses)) {tenant_id : ℕ}
    (hf : ¬v.investigation.Found ⟨some tenant_id, .customer⟩ (some tenant_id)) :
    customerView (v.after accesses) tenant_id = .error .notFound := by
  have hrun := run_spec (follows_start v.investigation) accesses (by simpa using hord)
  have hrow : (v.after accesses).investigation = v.investigation := hrun.1
  rw [← hrow] at hf
  simp only [customerView, get_case_tenant, case_detail_not_found hf]

/-- Provider-only events stay out of the customer's answer exactly when they change neither
whether the log folds nor the last hundred timeline events. -/
theorem customerView_eq_iff (v : Variants) (tenant_id : ℕ) :
    customerView (v.after v.first) tenant_id = customerView (v.after v.second) tenant_id ↔
      (v.investigation.tenant_id = tenant_id → v.investigation.visibility ≠ .mssp_only →
        (FoldsAll [] (log v.first) ↔ FoldsAll [] (log v.second)) ∧
        (FoldsAll [] (log v.first) →
          shownTimeline (log v.first) = shownTimeline (log v.second))) := by
  rw [← and_imp, ← found_customer_iff]
  by_cases hf : v.investigation.Found ⟨some tenant_id, .customer⟩ (some tenant_id)
  · obtain ⟨hok₁, herr₁⟩ := customerView_spec v v.firstOrdered hf
    obtain ⟨hok₂, herr₂⟩ := customerView_spec v v.secondOrdered hf
    by_cases h₁ : FoldsAll [] (log v.first) <;> by_cases h₂ : FoldsAll [] (log v.second)
    · rw [hok₁ h₁, hok₂ h₂]
      simp [hf, h₁, h₂]
    · rw [hok₁ h₁, herr₂ h₂]
      simp [hf, h₁, h₂]
    · rw [herr₁ h₁, hok₂ h₂]
      simp [hf, h₁, h₂]
    · rw [herr₁ h₁, herr₂ h₂]
      simp [hf, h₁, h₂]
  · rw [customerView_not_found v v.firstOrdered hf, customerView_not_found v v.secondOrdered hf]
    simp [hf]

/-- The same open case with and without a note that is for the provider only. -/
def internalNote : Variants where
  investigation :=
    { id := 1, tenant_id := 1, visibility := .customer_safe, short_id := "INV-1", title := "Login"
      status := "active", severity := 5, opened_at := 0, closed_at := none, summary := none }
  first := []
  second := [.append ⟨1, "timeline_entry", [("summary", .str "customer's admin is the suspect")],
    .mssp_only, rfl⟩]
  firstOrdered := by simp [Ordered, log]
  secondOrdered := by simp [Ordered, log, Access.event?]
  alike := rfl

theorem customerView_internalNote :
    customerView (internalNote.after internalNote.first) 1 ≠
      customerView (internalNote.after internalNote.second) 1 := by
  have hf := (found_customer_iff internalNote.investigation 1).mpr ⟨rfl, by decide⟩
  have hfirst := (customerView_spec internalNote internalNote.firstOrdered hf).1 trivial
  have hsecond := (customerView_spec internalNote internalNote.secondOrdered hf).1 ⟨trivial, trivial⟩
  rw [hfirst, hsecond]
  intro heq
  have htimeline := (Prod.mk.inj (Except.ok.inj heq)).2
  cases htimeline

end SocTalk.Projection
