import Mathlib.Logic.Function.Basic
import SocTalk.Lib.Sha256
import SocTalk.Lib.Transition
import SocTalk.Projection.Inbox
import SocTalk.Projection.Passes

/-! Analyst corrections of the projected facts: what a corrected field shows after any sequence of
corrections and other events. -/
namespace SocTalk.Projection
open Py

/-! ## Fields -/

def Hypothesis.field (h : Hypothesis) : String → Option Value
  | "label" => some h.label
  | "confidence" => some h.confidence
  | "rationale" => some h.rationale
  | _ => none

def hypothesis? (hs : List Hypothesis) (bid : String) : Option Hypothesis :=
  hs.find? fun h => h.id.eq (.str bid)

def directive? (ds : List Directive) (bid : String) : Option Directive :=
  ds.find? fun d => d.id.eq (.str bid)

theorem hypothesis?_cons (h : Hypothesis) (hs : List Hypothesis) (bid : String) :
    hypothesis? (h :: hs) bid = if h.id.eq (.str bid) then some h else hypothesis? hs bid := by
  unfold hypothesis?
  rw [List.find?_cons]
  cases h.id.eq (.str bid) <;> rfl

theorem directive?_cons (d : Directive) (ds : List Directive) (bid : String) :
    directive? (d :: ds) bid = if d.id.eq (.str bid) then some d else directive? ds bid := by
  unfold directive?
  rw [List.find?_cons]
  cases d.id.eq (.str bid) <;> rfl

/-- What the projection shows under a path; nothing for a path of no recognised form or without a
target. -/
def Facts.shown (s : Facts) (path : String) : Option Value :=
  match Py.split '.' path with
  | ["hypotheses", bid, field_name] =>
    (hypothesis? s.hypotheses bid).bind fun h => h.field field_name
  | ["directives", bid, "text"] => (directive? s.active_directives bid).map (·.text)
  | _ => none

theorem eq_of_eq_str {id : Value} {a b : String} (ha : id.eq (.str a) = true)
    (hb : id.eq (.str b) = true) : a = b := by
  cases id <;> simp_all [Value.eq, Value.num?, Value.text?]

theorem field_correct {h h' : Hypothesis} {field_name : String} {value : Value}
    (hc : h.correct field_name value = some h') (other : String) :
    h'.field other = if other = field_name then some value else h.field other := by
  unfold Hypothesis.correct at hc
  split at hc
  · obtain rfl := Option.some.inj hc
    unfold Hypothesis.field
    split <;> simp_all
  · obtain rfl := Option.some.inj hc
    unfold Hypothesis.field
    split <;> simp_all
  · obtain rfl := Option.some.inj hc
    unfold Hypothesis.field
    split <;> simp_all
  · cases hc

theorem correct_eq_none {h : Hypothesis} {field_name : String} {value : Value} :
    h.correct field_name value = none ↔ h.field field_name = none := by
  unfold Hypothesis.correct Hypothesis.field
  split <;> simp

/-- The hypotheses after a correction, which may find nothing to correct. -/
theorem field_correctHypotheses (bid field_name : String) (value : Value) (hs : List Hypothesis)
    (id other : String) :
    ((hypothesis? ((correctHypotheses (.str bid) field_name value hs).getD hs) id).bind fun h =>
      h.field other) =
      if id = bid ∧ other = field_name then
        ((hypothesis? hs bid).bind fun h => h.field field_name).map fun _ => value
      else (hypothesis? hs id).bind fun h => h.field other := by
  induction hs with
  | nil => simp [correctHypotheses, hypothesis?]
  | cons h hs ih =>
    have htail : ((correctHypotheses (.str bid) field_name value hs).map (h :: ·)).getD (h :: hs) =
        h :: (correctHypotheses (.str bid) field_name value hs).getD hs := by
      cases correctHypotheses (.str bid) field_name value hs <;> rfl
    unfold correctHypotheses
    rw [hypothesis?_cons h hs bid, hypothesis?_cons h hs id]
    by_cases hbid : h.id.eq (.str bid) = true
    · rw [if_pos hbid, if_pos hbid]
      cases hc : h.correct field_name value with
      | some h' =>
        have hid : h'.id = h.id := id_correct hc
        have hfield : h.field field_name ≠ none := fun hnone => by
          rw [correct_eq_none.mpr hnone] at hc
          cases hc
        obtain ⟨old, hold⟩ := Option.ne_none_iff_exists'.mp hfield
        dsimp only
        rw [Option.getD_some, hypothesis?_cons, hid]
        by_cases hhere : h.id.eq (.str id) = true
        · obtain rfl := eq_of_eq_str hhere hbid
          simp [hhere, field_correct hc, hold]
        · have hne : id ≠ bid := fun heq => hhere (heq ▸ hbid)
          simp [hhere, hne]
      | none =>
        have hnone := correct_eq_none.mp hc
        dsimp only
        rw [htail, hypothesis?_cons]
        by_cases hhere : h.id.eq (.str id) = true
        · obtain rfl := eq_of_eq_str hhere hbid
          rw [if_pos hhere]
          split
          · rename_i hsame
            rw [Option.bind_some, Option.bind_some, hsame.2, hnone]
            rfl
          · rfl
        · have hne : id ≠ bid := fun heq => hhere (heq ▸ hbid)
          rw [if_neg hhere, ih]
          simp [hne, hhere]
    · rw [if_neg hbid, if_neg hbid]
      dsimp only
      rw [htail, hypothesis?_cons]
      by_cases hhere : h.id.eq (.str id) = true
      · have hne : id ≠ bid := fun heq => hbid (heq ▸ hhere)
        simp [hhere, hne]
      · rw [if_neg hhere, if_neg hhere, ih]

theorem text_correctDirectives (bid : String) (value : Value) (ds : List Directive) (id : String) :
    (directive? (correctDirectives (.str bid) value ds) id).map (·.text) =
      if id = bid then (directive? ds bid).map fun _ => value
      else (directive? ds id).map (·.text) := by
  induction ds with
  | nil => simp [correctDirectives, directive?]
  | cons d ds ih =>
    unfold correctDirectives
    rw [directive?_cons d ds bid, directive?_cons d ds id]
    by_cases hbid : d.id.eq (.str bid) = true
    · rw [if_pos hbid, if_pos hbid, directive?_cons]
      by_cases hhere : d.id.eq (.str id) = true
      · obtain rfl := eq_of_eq_str hhere hbid
        simp [hhere]
      · have hne : id ≠ bid := fun heq => hhere (heq ▸ hbid)
        simp [hhere, hne]
    · rw [if_neg hbid, if_neg hbid, directive?_cons]
      by_cases hhere : d.id.eq (.str id) = true
      · have hne : id ≠ bid := fun heq => hbid (heq ▸ hhere)
        simp [hhere, hne]
      · rw [if_neg hhere, if_neg hhere, ih]

/-! ## Paths -/

theorem splitChars_ne_nil (sep : Char) (cs : List Char) : splitChars sep cs ≠ [] := by
  induction cs with
  | nil => simp [splitChars]
  | cons c cs ih =>
    unfold splitChars
    split
    · simp
    · split <;> simp

theorem intercalate_splitChars (sep : Char) (cs : List Char) :
    [sep].intercalate (splitChars sep cs) = cs := by
  induction cs with
  | nil => rfl
  | cons c cs ih =>
    unfold splitChars
    split
    · rename_i hsep
      obtain ⟨piece, rest, hpieces⟩ := List.exists_cons_of_ne_nil (splitChars_ne_nil sep cs)
      rw [hpieces] at ih ⊢
      rw [List.intercalate_cons_cons, ih, hsep]
      rfl
    · split
      · rename_i piece rest hpieces
        rw [hpieces] at ih
        cases rest with
        | nil =>
          have hone : piece = cs := by simpa using ih
          simp [hone]
        | cons next rest =>
          rw [List.intercalate_cons_cons] at ih ⊢
          rw [← ih]
          simp
      · rename_i hnil
        exact absurd hnil (splitChars_ne_nil sep cs)

/-- Different paths fall into different parts. -/
theorem split_injective (sep : Char) : Function.Injective (Py.split sep) := by
  intro a b h
  have hpieces : splitChars sep a.toList = splitChars sep b.toList :=
    List.map_injective_iff.mpr (fun _ _ => String.ofList_inj.mp) h
  have hjoined := congrArg [sep].intercalate hpieces
  rw [intercalate_splitChars, intercalate_splitChars] at hjoined
  exact String.toList_inj.mp hjoined

/-- A correction sets the field at its path, where there is one, and no other. -/
theorem shown_apply_correction {s s' : Facts} {path : String} {value : Value}
    (h : apply_correction s (.str path) value = .ok s') (other : String) :
    s'.shown other = if other = path then (s.shown path).map fun _ => value else s.shown other := by
  obtain ⟨parts, hparts, hrest⟩ := (bind_eq_ok _ _ _).mp h
  obtain rfl : Py.split '.' path = parts := Except.ok.inj hparts
  have hother : other = path ↔ Py.split '.' other = Py.split '.' path :=
    (split_injective '.').eq_iff.symm
  simp only [hother]
  split at hrest
  · rename_i bid field_name hpath
    have hs' : s' = { s with hypotheses :=
        (correctHypotheses (.str bid) field_name value s.hypotheses).getD s.hypotheses } := by
      split at hrest
      · rename_i hs hcorrected
        rw [← (pure_eq_ok _ _).mp hrest, hcorrected]
        rfl
      · rename_i hcorrected
        rw [← (pure_eq_ok _ _).mp hrest, hcorrected]
        rfl
    subst hs'
    unfold Facts.shown
    rw [hpath]
    split
    · rename_i id name hid
      rw [hid, field_correctHypotheses]
      simp
    · rename_i hid
      simp [hid]
    · rename_i hnot _
      rw [if_neg fun heq => hnot _ _ heq]
  · rename_i bid hpath
    obtain rfl := (pure_eq_ok _ _).mp hrest
    unfold Facts.shown
    rw [hpath]
    split
    · rename_i id name hid
      simp [hid]
    · rename_i id hid
      rw [hid, text_correctDirectives]
      simp [Option.map_map, Function.comp_def]
    · rename_i _ hnot
      rw [if_neg fun heq => hnot _ heq]
  · rename_i hnot hnot'
    obtain rfl := (pure_eq_ok _ _).mp hrest
    split
    · rename_i heq
      unfold Facts.shown
      rw [heq]
      split
      · rename_i hpath
        exact absurd hpath (hnot _ _)
      · rename_i hpath
        exact absurd hpath (hnot' _)
      · rfl
    · rfl

/-- The event leaves the field at a path alone. -/
def Event.Spares (e : Event) (path : String) : Prop :=
  ∀ s s' : Facts, apply_event s e = .ok s' → s.shown path ≠ none → s'.shown path = s.shown path

/-! ## The facts endpoint -/

namespace Corrections

/-- What `patch_case_facts` appends. -/
def correction (author path : String) (value : Value) : Inbox.Append where
  kind := "analyst_correction"
  payload := [("path", .str path), ("value", value), ("author_user_id", .str author)]
  producer := some ("user:" ++ author)

/-- An investigation: its inbox, its projection, and the value of the last correction that was taken
for a path. -/
structure Case where
  inbox : Inbox
  row : Option Facts := none
  last : String → Option Value := fun _ => none

namespace Case

def consume (c : Case) : Option Case :=
  match consume_new_events c.inbox.events c.row with
  | .ok (row, _) => some { c with row := row }
  | .error _ => none

inductive Op where
  | correct (author path : String) (value : Value)
  /-- Any other append. -/
  | append (a : Inbox.Append)
  | consume

variable (sha256 : String → String)

/-- The append and the consumption in one transaction; nothing where it is rolled back. -/
def patch_case_facts (c : Case) (author path : String) (value : Value) : Option Case := do
  let inbox ← c.inbox.append_event sha256 (correction author path value)
  let c ← consume { c with inbox := inbox }
  return { c with last := Function.update c.last path (some value) }

def append (c : Case) (a : Inbox.Append) : Option Case :=
  (c.inbox.append_event sha256 a).map fun inbox => { c with inbox := inbox }

def step (c : Case) : Op → Case
  | .correct author path value => (c.patch_case_facts sha256 author path value).getD c
  | .append a => (c.append sha256 a).getD c
  | .consume => c.consume.getD c

/-- The facts that a consumption now would leave. -/
def current (c : Case) : Except Failure Facts :=
  applyAll (load_facts c.row)
    (c.inbox.events.filter fun e => (load_facts c.row).applied_seq < e.seq)

/-- Each corrected field shows the value of its last correction, as the column keeps it. -/
def ShowsLast (c : Case) : Prop :=
  ∀ path value, c.last path = some value →
    ∃ w, value.stored = some w ∧ (load_facts c.row).shown path = some w

/-- Corrections are of fields that are there, and nothing else touches a corrected field. -/
def InScope (c : Case) : Op → Prop
  | .correct _ path _ => ∀ facts, c.current = .ok facts → facts.shown path ≠ none
  | .append a => ∀ e, Event.append_event c.inbox.next a.kind a.payload a.visibility = some e →
      ∀ path, c.last path ≠ none → e.Spares path
  | .consume => True

/-- No correction repeats an earlier event of the inbox, except one whose value the field shows. -/
def Lands (sha256 : String → String) (c : Case) : Op → Prop
  | .correct author path value =>
      c.inbox.key sha256 (correction author path value) ∈ c.inbox.log.keys →
        ∀ facts, c.current = .ok facts → facts.shown path = value.stored
  | _ => True

/-! ## Consumption -/

/-- The projection holds the events that have been seen; the pending ones are behind it. -/
structure Split (c : Case) (seen pending : List Event) : Prop where
  events : c.inbox.events = seen ++ pending
  ordered : Ordered c.inbox.events
  below : ∀ e ∈ c.inbox.events, e.seq < c.inbox.next
  started : 0 < c.inbox.next
  projects : Projects seen (load_facts c.row)

section

variable {c c' : Case} {seen pending : List Event} {facts : Facts}

theorem Split.current_eq (h : Split c seen pending) :
    c.current = applyAll (load_facts c.row) pending := by
  have hordered := h.ordered
  rw [h.events] at hordered
  unfold current
  rw [h.events, h.projects.unseen hordered]

theorem Split.current_ok (h : Split c seen pending) :
    c.current = .ok facts ↔ pending.foldlM apply_event (load_facts c.row) = .ok facts := by
  rw [h.current_eq]
  unfold applyAll
  split
  · rename_i hfold
    rw [hfold]
    exact ⟨fun heq => congrArg Except.ok (Except.ok.inj heq),
      fun heq => congrArg Except.ok (Except.ok.inj heq)⟩
  · rename_i hfold
    rw [hfold]
    constructor
    · intro heq
      cases heq
    · intro heq
      cases heq

/-- A consumption leaves the current facts. -/
theorem Split.consume (h : Split c seen pending) (hc : c.consume = some c') :
    c.current = .ok (load_facts c'.row) ∧ Split c' (seen ++ pending) [] ∧
      c'.inbox = c.inbox ∧ c'.last = c.last := by
  have hordered := h.ordered
  rw [h.events] at hordered
  have hspec := consume_spec h.projects hordered
  unfold Case.consume at hc
  rw [h.events] at hc
  split at hc
  · rename_i row n hok
    obtain ⟨row', n', hok', hfold, hprojects⟩ := hspec.1 (hspec.2 ⟨_, hok⟩)
    obtain rfl : row' = row := by
      rw [hok] at hok'
      exact (Prod.mk.inj (Except.ok.inj hok')).1.symm
    obtain rfl := Option.some.inj hc
    refine ⟨h.current_ok.mpr hfold, ?_, rfl, rfl⟩
    exact ⟨by rw [h.events, List.append_nil], h.ordered, h.below, h.started, hprojects⟩
  · cases hc

/-- An append is dropped where its key is taken, and else pending. -/
theorem Split.append {sha256 : String → String} {a : Inbox.Append} {inbox : Inbox}
    (h : Split c seen pending) (ha : c.inbox.append_event sha256 a = some inbox) :
    ∃ e, Event.append_event c.inbox.next a.kind a.payload a.visibility = some e ∧
      (c.inbox.key sha256 a ∈ c.inbox.log.keys ∧ Split { c with inbox := inbox } seen pending ∨
        c.inbox.key sha256 a ∉ c.inbox.log.keys ∧
          Split { c with inbox := inbox } seen (pending ++ [e])) := by
  obtain ⟨e, he, rfl⟩ := Option.map_eq_some_iff.mp ha
  have hseq := Passes.seq_append_event he
  refine ⟨e, he, ?_⟩
  by_cases hkey : c.inbox.key sha256 a ∈ c.inbox.log.keys
  · refine .inl ⟨hkey, ?_⟩
    rw [KeyedLog.append_of_mem hkey]
    exact ⟨h.events, h.ordered, fun x hx => Nat.lt_succ_of_lt (h.below x hx), Nat.succ_pos _,
      h.projects⟩
  · refine .inr ⟨hkey, ?_⟩
    have hevents : (c.inbox.log.append (c.inbox.key sha256 a) e).entries.map Prod.snd =
        c.inbox.events ++ [e] := by
      rw [KeyedLog.entries_append hkey, List.map_append]
      rfl
    refine ⟨?_, ?_, ?_, Nat.succ_pos _, h.projects⟩
    · exact hevents.trans (by rw [h.events, List.append_assoc])
    · show Ordered (List.map _ _)
      rw [hevents]
      constructor
      · refine List.pairwise_append.mpr ⟨h.ordered.1, List.pairwise_singleton _ _, ?_⟩
        intro x hx y hy
        rw [List.mem_singleton.mp hy, hseq]
        exact h.below x hx
      · intro x hx
        rcases List.mem_append.mp hx with hold | hnew
        · exact h.ordered.2 x hold
        · rw [List.mem_singleton.mp hnew, hseq]
          exact h.started
    · show ∀ x ∈ List.map _ _, _
      rw [hevents]
      intro x hx
      rcases List.mem_append.mp hx with hold | hnew
      · exact Nat.lt_succ_of_lt (h.below x hold)
      · rw [List.mem_singleton.mp hnew, hseq]
        exact Nat.lt_succ_self _

/-- A pending event is folded after the current facts. -/
theorem current_append {d : Case} {e : Event} {t : Facts} (h : Split c seen pending)
    (hd : Split d seen (pending ++ [e])) (hrow : d.row = c.row) (ht : d.current = .ok t) :
    ∃ s, c.current = .ok s ∧ apply_event s e = .ok t := by
  rw [hd.current_ok, hrow, List.foldlM_append] at ht
  obtain ⟨s, hs, hlast⟩ := (bind_eq_ok _ _ _).mp ht
  refine ⟨s, h.current_ok.mpr hs, ?_⟩
  simpa using hlast

end

/-! ## One correction -/

theorem byKey_eq_self {d : Dict} (h : (d.map Prod.fst).Pairwise fun a b =>
    toLex (a.utf8ByteSize, a) ≤ toLex (b.utf8ByteSize, b)) : byKey d = d :=
  (List.pairwise_map.mp h).insertionSort_eq

theorem payload_append_event {seq : ℕ} {kind : String} {payload : Dict} {visibility : Visibility}
    {e : Event} (he : Event.append_event seq kind payload visibility = some e) :
    (Value.dict payload).stored = some (.dict e.payload) ∧ e.kind = kind := by
  unfold Event.append_event at he
  split at he
  · rename_i d hd
    obtain rfl := Option.some.inj he
    exact ⟨hd, rfl⟩
  · cases he

/-- The row that a correction becomes. -/
theorem payload_correctionEvent {seq : ℕ} {author path : String} {value : Value} {e : Event}
    (he : Event.append_event seq "analyst_correction" (correction author path value).payload
      .mssp_only = some e) :
    ∃ w, value.stored = some w ∧ e.kind = "analyst_correction" ∧
      e.payload = [("path", .str path), ("value", w), ("author_user_id", .str author)] := by
  obtain ⟨hd, hkind⟩ := payload_append_event he
  obtain ⟨pairs, hpairs, hsorted⟩ := Option.map_eq_some_iff.mp hd
  cases hw : value.stored with
  | none => simp [correction, Value.storedPairs, Value.stored, hw] at hpairs
  | some w =>
    obtain rfl : [("path", .str path), ("value", w), ("author_user_id", .str author)] = pairs := by
      simpa [correction, Value.storedPairs, Value.stored, hw] using hpairs
    refine ⟨w, rfl, hkind, ?_⟩
    have hdict := (Value.dict.inj hsorted).symm
    refine hdict.trans (byKey_eq_self ?_)
    show ["path", "value", "author_user_id"].Pairwise _
    decide

theorem kind_correctionEvent {e : Event} (hkind : e.kind = "analyst_correction") :
    e.kind? = some .analystCorrection := by
  unfold Event.kind?
  rw [hkind]
  rfl

/-- What an accepted correction does to the facts. -/
theorem apply_correctionEvent {seq : ℕ} {author path : String} {value : Value} {e : Event}
    (he : Event.append_event seq "analyst_correction" (correction author path value).payload
      .mssp_only = some e) :
    ∃ w, value.stored = some w ∧ ∀ s t, apply_event s e = .ok t → ∀ other,
      t.shown other = if other = path then (s.shown path).map fun _ => w else s.shown other := by
  obtain ⟨w, hw, hkind, hpayload⟩ := payload_correctionEvent he
  refine ⟨w, hw, fun s t happly other => ?_⟩
  unfold apply_event Facts.fold at happly
  rw [kind_correctionEvent hkind, hpayload] at happly
  exact shown_apply_correction happly other

/-- A correction folds into any projection. -/
theorem folds_correctionEvent {seq : ℕ} {author path : String} {value : Value} {e : Event}
    (he : Event.append_event seq "analyst_correction" (correction author path value).payload
      .mssp_only = some e) (log : List Event) : e.Folds log := by
  obtain ⟨w, -, hkind, hpayload⟩ := payload_correctionEvent he
  unfold Event.Folds
  rw [kind_correctionEvent hkind, hpayload]
  rfl

/-! ## Runs -/

/-- Each corrected field shows its value now and after the next consumption. -/
structure Inv (c : Case) : Prop where
  split : ∃ seen pending, Split c seen pending
  shown : ∀ path value, c.last path = some value → ∃ w, value.stored = some w ∧
    (load_facts c.row).shown path = some w ∧
    ∀ facts, c.current = .ok facts → facts.shown path = some w

variable {c c' : Case}

theorem Inv.showsLast (h : Inv c) : c.ShowsLast := by
  intro path value hlast
  obtain ⟨w, hw, hrow, -⟩ := h.shown path value hlast
  exact ⟨w, hw, hrow⟩

/-- After a consumption what is shown is what is current. -/
theorem Inv.of_consumed {seen : List Event} (hsplit : Split c seen [])
    (hshown : ∀ path value, c.last path = some value → ∃ w, value.stored = some w ∧
      (load_facts c.row).shown path = some w) : Inv c := by
  refine ⟨⟨seen, [], hsplit⟩, fun path value hlast => ?_⟩
  obtain ⟨w, hw, hrow⟩ := hshown path value hlast
  refine ⟨w, hw, hrow, fun facts hfacts => ?_⟩
  have hnone : c.current = .ok (load_facts c.row) := hsplit.current_ok.mpr rfl
  obtain rfl := Except.ok.inj (hnone.symm.trans hfacts)
  exact hrow

theorem Inv.consume (h : Inv c) (hc : c.consume = some c') : Inv c' := by
  obtain ⟨seen, pending, hsplit⟩ := h.split
  obtain ⟨hcurrent, hsplit', -, hlast⟩ := hsplit.consume hc
  refine Inv.of_consumed hsplit' fun path value hvalue => ?_
  rw [hlast] at hvalue
  obtain ⟨w, hw, -, hshown⟩ := h.shown path value hvalue
  exact ⟨w, hw, hshown _ hcurrent⟩

theorem Inv.append {sha256 : String → String} {a : Inbox.Append} (h : Inv c)
    (hscope : c.InScope (.append a)) (hc : c.append sha256 a = some c') : Inv c' := by
  obtain ⟨seen, pending, hsplit⟩ := h.split
  obtain ⟨inbox, hinbox, rfl⟩ := Option.map_eq_some_iff.mp hc
  obtain ⟨e, he, ⟨-, hsplit'⟩ | ⟨-, hsplit'⟩⟩ := hsplit.append hinbox
  · refine ⟨⟨seen, pending, hsplit'⟩, fun path value hlast => ?_⟩
    obtain ⟨w, hw, hrow, hshown⟩ := h.shown path value hlast
    refine ⟨w, hw, hrow, fun facts hfacts => hshown facts ?_⟩
    rw [hsplit.current_eq]
    rw [hsplit'.current_eq] at hfacts
    exact hfacts
  · refine ⟨⟨seen, pending ++ [e], hsplit'⟩, fun path value hlast => ?_⟩
    obtain ⟨w, hw, hrow, hshown⟩ := h.shown path value hlast
    refine ⟨w, hw, hrow, fun facts hfacts => ?_⟩
    obtain ⟨s, hs, happly⟩ := current_append hsplit hsplit' rfl hfacts
    have hcorrected : c.last path ≠ none := by
      intro hnone
      rw [hnone] at hlast
      cases hlast
    have hbefore := hshown s hs
    have hthere : s.shown path ≠ none := by
      rw [hbefore]
      exact Option.some_ne_none w
    rw [hscope e he path hcorrected s facts happly hthere]
    exact hbefore

theorem Inv.correct {sha256 : String → String} {author path : String} {value : Value} (h : Inv c)
    (hscope : c.InScope (.correct author path value))
    (hlands : c.Lands sha256 (.correct author path value))
    (hc : c.patch_case_facts sha256 author path value = some c') : Inv c' := by
  obtain ⟨seen, pending, hsplit⟩ := h.split
  obtain ⟨inbox, hinbox, hrest⟩ := Option.bind_eq_some_iff.mp hc
  obtain ⟨d, hd, hlast⟩ := Option.bind_eq_some_iff.mp hrest
  obtain rfl := Option.some.inj hlast
  obtain ⟨e, he, hcases⟩ := hsplit.append hinbox
  obtain ⟨w, hw, hset⟩ := apply_correctionEvent he
  -- What the projection shows afterwards, and that nothing is pending.
  have hafter : (load_facts d.row).shown path = some w ∧
      (∀ other ≠ path, ∀ v, (∀ facts, c.current = .ok facts → facts.shown other = some v) →
        (load_facts d.row).shown other = some v) ∧
      d.last = c.last ∧ ∃ seen', Split d seen' [] := by
    rcases hcases with ⟨hkey, hsplit'⟩ | ⟨-, hsplit'⟩
    · obtain ⟨hcurrent, hdone, -, hsame⟩ := hsplit'.consume hd
      have hbefore : c.current = .ok (load_facts d.row) := by
        rw [hsplit.current_eq]
        rw [hsplit'.current_eq] at hcurrent
        exact hcurrent
      refine ⟨?_, fun other _ v hshown => hshown _ hbefore, hsame, _, hdone⟩
      rw [hlands hkey _ hbefore, hw]
    · obtain ⟨hcurrent, hdone, -, hsame⟩ := hsplit'.consume hd
      obtain ⟨s, hs, happly⟩ := current_append hsplit hsplit' rfl hcurrent
      obtain ⟨old, hold⟩ := Option.ne_none_iff_exists'.mp (hscope s hs)
      refine ⟨?_, fun other hne v hshown => ?_, hsame, _, hdone⟩
      · rw [hset s _ happly path, if_pos rfl, hold]
        rfl
      · rw [hset s _ happly other, if_neg hne]
        exact hshown s hs
  obtain ⟨hshown, hothers, hsame, seen', hdone⟩ := hafter
  have hsplit' : Split { d with last := Function.update d.last path (some value) } seen' [] :=
    ⟨hdone.events, hdone.ordered, hdone.below, hdone.started, hdone.projects⟩
  refine Inv.of_consumed hsplit' fun other v hv => ?_
  by_cases hother : other = path
  · subst hother
    obtain rfl : value = v := by
      have hvalue : Function.update d.last other (some value) other = some v := hv
      rw [Function.update_self] at hvalue
      exact Option.some.inj hvalue
    exact ⟨w, hw, hshown⟩
  · have hold : c.last other = some v := by
      have hvalue : Function.update d.last path (some value) other = some v := hv
      rwa [Function.update_of_ne hother, hsame] at hvalue
    obtain ⟨u, hu, -, hcurrent⟩ := h.shown other v hold
    exact ⟨u, hu, hothers other hother u hcurrent⟩

theorem Inv.step {sha256 : String → String} (h : Inv c) (op : Op) (hscope : c.InScope op)
    (hlands : c.Lands sha256 op) : Inv (c.step sha256 op) := by
  cases op with
  | correct author path value =>
    show Inv ((c.patch_case_facts sha256 author path value).getD c)
    cases hc : c.patch_case_facts sha256 author path value with
    | none => exact h
    | some c' => exact h.correct hscope hlands hc
  | append a =>
    show Inv ((c.append sha256 a).getD c)
    cases hc : c.append sha256 a with
    | none => exact h
    | some c' => exact h.append hscope hc
  | consume =>
    show Inv (c.consume.getD c)
    cases hc : c.consume with
    | none => exact h
    | some c' => exact h.consume hc

/-- An investigation that is just there. -/
def opened (investigation_id : String) : Case := { inbox := { investigation_id := investigation_id } }

theorem split_opened (investigation_id : String) : Split (opened investigation_id) [] [] := by
  refine ⟨rfl, ⟨List.Pairwise.nil, ?_⟩, ?_, Nat.one_pos, projects_nil⟩
  · intro e he
    cases he
  · intro e he
    cases he

theorem inv_opened (investigation_id : String) : Inv (opened investigation_id) := by
  refine ⟨⟨[], [], split_opened investigation_id⟩, ?_⟩
  intro path value hlast
  cases hlast

/-- In every run whose corrections land, each corrected field shows its last value. -/
theorem showsLast_of_lands (sha256 : String → String) (investigation_id : String)
    (hrun : Transition.Run (Case.step sha256) (fun c op => c.InScope op ∧ c.Lands sha256 op)
      (opened investigation_id) c) : c.ShowsLast := by
  have hinv : Inv c :=
    hrun.inv (fun _ op h hcond => h.step op hcond.1 hcond.2) (inv_opened investigation_id)
  exact hinv.showsLast

/-- An accepted correction is shown exactly if it lands. -/
theorem showsLast_iff_lands {sha256 : String → String} {author path : String} {value : Value}
    (h : Inv c) (hscope : c.InScope (.correct author path value))
    (hc : c.patch_case_facts sha256 author path value = some c') :
    c'.ShowsLast ↔ c.Lands sha256 (.correct author path value) := by
  constructor
  · intro hshows hkey facts hfacts
    obtain ⟨seen, pending, hsplit⟩ := h.split
    obtain ⟨inbox, hinbox, hrest⟩ := Option.bind_eq_some_iff.mp hc
    obtain ⟨d, hd, hlast⟩ := Option.bind_eq_some_iff.mp hrest
    obtain rfl := Option.some.inj hlast
    obtain ⟨e, -, ⟨-, hsplit'⟩ | ⟨hnew, -⟩⟩ := hsplit.append hinbox
    · obtain ⟨hcurrent, -, -, -⟩ := hsplit'.consume hd
      rw [hsplit.current_eq] at hfacts
      rw [hsplit'.current_eq] at hcurrent
      obtain rfl := Except.ok.inj (hfacts.symm.trans hcurrent)
      obtain ⟨w, hw, hshown⟩ := hshows path value (Function.update_self ..)
      rw [hw]
      exact hshown
    · exact absurd hkey hnew
  · intro hlands
    exact (h.correct hscope hlands hc).showsLast

/-! ## Corrections that do not land -/

/-- A correction that is taken and consumed; its key is in the log from then on. -/
structure Accepted (sha256 : String → String) (c : Case) (author path : String) (value : Value)
    (c' : Case) : Prop where
  accepted : c.patch_case_facts sha256 author path value = some c'
  split : ∃ seen, Split c' seen []
  there : (load_facts c'.row).shown path ≠ none
  last : c'.last path = some value
  key : c.inbox.key sha256 (correction author path value) ∈ c'.inbox.log.keys
  keys : ∀ k ∈ c.inbox.log.keys, k ∈ c'.inbox.log.keys
  named : c'.inbox.investigation_id = c.inbox.investigation_id

section

variable {sha256 : String → String} {author path : String} {value w : Value} {facts : Facts}

theorem Accepted.current (h : Accepted sha256 c author path value c') :
    c'.current = .ok (load_facts c'.row) := by
  obtain ⟨seen, hsplit⟩ := h.split
  exact hsplit.current_ok.mpr rfl

theorem Accepted.step (h : Accepted sha256 c author path value c') :
    c.step sha256 (.correct author path value) = c' := by
  show (c.patch_case_facts sha256 author path value).getD c = c'
  rw [h.accepted]
  rfl

theorem Split.folds {seen pending : List Event} (h : Split c seen pending)
    (hcurrent : c.current = .ok facts) : FoldsAll seen pending :=
  (h.projects.foldlM pending).2 ⟨facts, h.current_ok.mp hcurrent⟩

theorem Split.exists_consume {seen pending : List Event} (h : Split c seen pending)
    (hfolds : FoldsAll seen pending) : ∃ c', c.consume = some c' := by
  have hordered := h.ordered
  rw [h.events] at hordered
  obtain ⟨row, n, hok, -⟩ := (consume_spec h.projects hordered).1 hfolds
  refine ⟨{ c with row := row }, ?_⟩
  unfold Case.consume
  rw [h.events, hok]

theorem append_event_correction (seq : ℕ) (author path : String) (hw : value.stored = some w) :
    ∃ e, Event.append_event seq "analyst_correction" (correction author path value).payload
      .mssp_only = some e := by
  rw [← Option.isSome_iff_exists, Event.isSome_append_event]
  simp [correction, Value.stored, Value.storedPairs, hw]

/-- Where the facts fold, a correction of a field that is there is taken. -/
theorem exists_accepted (sha256 : String → String) (author : String) {seen pending : List Event}
    (hsplit : Split c seen pending) (hcurrent : c.current = .ok facts)
    (hthere : facts.shown path ≠ none) (hw : value.stored = some w) :
    ∃ c', Accepted sha256 c author path value c' := by
  obtain ⟨e, he⟩ := append_event_correction c.inbox.next author path hw
  have happend : c.inbox.append_event sha256 (correction author path value) = some
      { c.inbox with
        log := c.inbox.log.append (c.inbox.key sha256 (correction author path value)) e
        next := c.inbox.next + 1 } :=
    Option.map_eq_some_iff.mpr ⟨e, he, rfl⟩
  have hkey := KeyedLog.mem_keys_append c.inbox.log
    (c.inbox.key sha256 (correction author path value)) e
  have hkeys : ∀ k ∈ c.inbox.log.keys,
      k ∈ (c.inbox.log.append (c.inbox.key sha256 (correction author path value)) e).keys :=
    fun k hk => KeyedLog.mem_keys_append_of_mem _ e hk
  obtain ⟨e', he', hcases⟩ := hsplit.append happend
  obtain rfl : e = e' := Option.some.inj (he.symm.trans he')
  -- The consumption behind it, whether or not the append was dropped.
  have hconsumed : ∃ d, consume { c with inbox := { c.inbox with
        log := c.inbox.log.append (c.inbox.key sha256 (correction author path value)) e
        next := c.inbox.next + 1 } } = some d ∧
      (∃ seen', Split d seen' []) ∧ d.inbox = { c.inbox with
        log := c.inbox.log.append (c.inbox.key sha256 (correction author path value)) e
        next := c.inbox.next + 1 } ∧ (load_facts d.row).shown path ≠ none := by
    rcases hcases with ⟨-, hsplit'⟩ | ⟨-, hsplit'⟩
    · obtain ⟨d, hd⟩ := hsplit'.exists_consume (hsplit.folds hcurrent)
      obtain ⟨hafter, hdone, hinbox, -⟩ := hsplit'.consume hd
      rw [hsplit.current_eq] at hcurrent
      rw [hsplit'.current_eq] at hafter
      obtain rfl : facts = load_facts d.row := Except.ok.inj (hcurrent.symm.trans hafter)
      exact ⟨d, hd, ⟨_, hdone⟩, hinbox, hthere⟩
    · have hfolds : FoldsAll seen (pending ++ [e]) :=
        foldsAll_append.mpr ⟨hsplit.folds hcurrent, folds_correctionEvent he _, trivial⟩
      obtain ⟨d, hd⟩ := hsplit'.exists_consume hfolds
      obtain ⟨hafter, hdone, hinbox, -⟩ := hsplit'.consume hd
      obtain ⟨s, hs, happly⟩ := current_append hsplit hsplit' rfl hafter
      obtain rfl : facts = s := Except.ok.inj (hcurrent.symm.trans hs)
      obtain ⟨u, -, hset⟩ := apply_correctionEvent he
      refine ⟨d, hd, ⟨_, hdone⟩, hinbox, ?_⟩
      rw [hset _ _ happly path, if_pos rfl]
      simpa using hthere
  obtain ⟨d, hd, ⟨seen', hdone⟩, hinbox, hshown⟩ := hconsumed
  refine ⟨{ d with last := Function.update d.last path (some value) }, ?_, ⟨seen', hdone.events,
    hdone.ordered, hdone.below, hdone.started, hdone.projects⟩, hshown, Function.update_self .., ?_,
    ?_, ?_⟩
  · unfold patch_case_facts
    rw [happend]
    show (consume _ >>= _) = _
    rw [hd]
    rfl
  · show _ ∈ d.inbox.log.keys
    rw [hinbox]
    exact hkey
  · show ∀ k ∈ _, k ∈ d.inbox.log.keys
    rw [hinbox]
    exact hkeys
  · show d.inbox.investigation_id = _
    rw [hinbox]

theorem Accepted.inv (h : Accepted sha256 c author path value c') (hshows : c'.ShowsLast) :
    Inv c' := by
  obtain ⟨seen, hsplit⟩ := h.split
  exact Inv.of_consumed hsplit hshows

theorem Accepted.inScope (h : Accepted sha256 c author path value c') (author' : String) (v : Value) :
    c'.InScope (.correct author' path v) := by
  intro facts hfacts
  obtain rfl := Except.ok.inj (h.current.symm.trans hfacts)
  exact h.there

/-- Whatever the digest: of two corrections and the first one again, not all are shown. -/
theorem not_showsLast_of_restored {c₁ c₂ c₃ : Case} {v v' w' : Value}
    (hv : v.stored = some v') (hw : w.stored = some w') (hne : v' ≠ w')
    (h₁ : Accepted sha256 c author path v c₁) (h₂ : Accepted sha256 c₁ author path w c₂)
    (h₃ : Accepted sha256 c₂ author path v c₃) : ¬(c₂.ShowsLast ∧ c₃.ShowsLast) := by
  rintro ⟨hshows, hshows'⟩
  have hkey : c₂.inbox.key sha256 (correction author path v) ∈ c₂.inbox.log.keys := by
    unfold Inbox.key
    rw [h₂.named, h₁.named]
    exact h₂.keys _ h₁.key
  have hlands := (showsLast_iff_lands (h₂.inv hshows) (h₂.inScope author v) h₃.accepted).mp hshows'
  have hfirst := hlands hkey _ h₂.current
  obtain ⟨u, hu, hsecond⟩ := hshows path w h₂.last
  rw [hw] at hu
  rw [hsecond, hv] at hfirst
  exact hne (Option.some.inj (hfirst.symm.trans hu.symm))

end

/-! ## A label corrected -/

def notedPayload : Dict := [("id", .str "h1"), ("label", .str "phishing")]

def noted : Op := .append { kind := "hypothesis_updated", payload := notedPayload }

def relabel (value : String) : Op := .correct "ana" "hypotheses.h1.label" (.str value)

def named (sha256 : String → String) : Case := (opened "case-1").step sha256 noted

theorem stored_notedPayload : (Value.dict notedPayload).stored = some (.dict notedPayload) := by
  show some (Value.dict (byKey _)) = _
  rw [byKey_eq_self]
  · rfl
  · show ["id", "label"].Pairwise _
    decide

theorem apply_noted {e : Event} (hkind : e.kind = "hypothesis_updated")
    (hpayload : e.payload = notedPayload) :
    ∃ facts, apply_event {} e = .ok facts ∧
      facts.shown "hypotheses.h1.label" = some (.str "phishing") := by
  have hupdated : e.kind? = some .hypothesisUpdated := by
    unfold Event.kind?
    rw [hkind]
    rfl
  refine ⟨{ hypotheses := updateHypothesis (.str "h1") notedPayload [], applied_seq := max 0 e.seq },
    ?_, ?_⟩
  · unfold apply_event Facts.fold
    rw [hupdated, hpayload]
    rfl
  · have hpath : Py.split '.' "hypotheses.h1.label" = ["hypotheses", "h1", "label"] := by
      decide +kernel
    unfold Facts.shown
    rw [hpath]
    rfl

theorem named_eq (sha256 : String → String) : ∃ e,
    Event.append_event 1 "hypothesis_updated" notedPayload .mssp_only = some e ∧
      named sha256 = { opened "case-1" with
        inbox := { (opened "case-1").inbox with
          log := KeyedLog.empty.append
            (event_idempotency_key sha256 "case-1" "hypothesis_updated" notedPayload none) e
          next := 2 } } := by
  obtain ⟨e, he⟩ : ∃ e, Event.append_event 1 "hypothesis_updated" notedPayload .mssp_only =
      some e := by
    rw [← Option.isSome_iff_exists, Event.isSome_append_event, stored_notedPayload]
    rfl
  have happend : (opened "case-1").inbox.append_event sha256
      { kind := "hypothesis_updated", payload := notedPayload } = some _ :=
    Option.map_eq_some_iff.mpr ⟨e, he, rfl⟩
  refine ⟨e, he, ?_⟩
  unfold named step noted Case.append
  dsimp only
  rw [happend]
  rfl

theorem keys_named (sha256 : String → String) : (named sha256).inbox.log.keys =
    [event_idempotency_key sha256 "case-1" "hypothesis_updated" notedPayload none] := by
  obtain ⟨e, -, hnamed⟩ := named_eq sha256
  rw [hnamed]
  show KeyedLog.keys (KeyedLog.append _ _ _) = _
  unfold KeyedLog.keys
  rw [KeyedLog.entries_append (by exact List.not_mem_nil)]
  rfl

/-- The hypothesis is pending, and a consumption would show its label. -/
theorem current_named (sha256 : String → String) : ∃ pending facts,
    Split (named sha256) [] pending ∧ (named sha256).current = .ok facts ∧
      facts.shown "hypotheses.h1.label" = some (.str "phishing") := by
  obtain ⟨e, he, hnamed⟩ := named_eq sha256
  obtain ⟨hpayload, hkind⟩ := payload_append_event he
  rw [stored_notedPayload] at hpayload
  have hdict := Value.dict.inj (Option.some.inj hpayload)
  have happend : (opened "case-1").inbox.append_event sha256
      { kind := "hypothesis_updated", payload := notedPayload } = some _ :=
    Option.map_eq_some_iff.mpr ⟨e, he, rfl⟩
  obtain ⟨e', he', ⟨hkey, -⟩ | ⟨-, hsplit⟩⟩ := (split_opened "case-1").append happend
  · cases hkey
  · obtain rfl : e = e' := Option.some.inj (he.symm.trans he')
    obtain ⟨facts, hfacts, hshown⟩ := apply_noted hkind hdict.symm
    rw [hnamed]
    refine ⟨_, facts, hsplit, hsplit.current_ok.mpr ?_, hshown⟩
    show ([e].foldlM apply_event {}) = _
    rw [List.foldlM_cons, hfacts]
    rfl

theorem inScope_noted : (opened "case-1").InScope noted := by
  intro e _ path hlast
  exact absurd rfl hlast

theorem inScope_named (sha256 : String → String) (value : String) :
    (named sha256).InScope (relabel value) := by
  obtain ⟨pending, facts, -, hfacts, hshown⟩ := current_named sha256
  intro facts' hfacts' hnone
  obtain rfl := Except.ok.inj (hfacts.symm.trans hfacts')
  rw [hshown] at hnone
  cases hnone

theorem exists_accepted_named (sha256 : String → String) (value : String) :
    ∃ c, Accepted sha256 (named sha256) "ana" "hypotheses.h1.label" (.str value) c := by
  obtain ⟨pending, facts, hsplit, hfacts, hshown⟩ := current_named sha256
  have hthere : facts.shown "hypotheses.h1.label" ≠ none := by
    rw [hshown]
    exact Option.some_ne_none _
  exact exists_accepted sha256 "ana" hsplit hfacts hthere rfl

theorem Accepted.next {sha256 : String → String} {author path : String} {v : Value}
    (h : Accepted sha256 c author path v c') (value : String) :
    ∃ d, Accepted sha256 c' author path (.str value) d := by
  obtain ⟨seen, hsplit⟩ := h.split
  exact exists_accepted sha256 author hsplit h.current h.there rfl

theorem key_relabel (sha256 : String → String) :
    (named sha256).inbox.key sha256 (correction "ana" "hypotheses.h1.label" (.str "malware")) =
      event_idempotency_key sha256 "case-1" "analyst_correction"
        (correction "ana" "hypotheses.h1.label" (.str "malware")).payload (some "user:ana") := by
  obtain ⟨e, -, hnamed⟩ := named_eq sha256
  rw [hnamed]
  rfl

theorem lands_relabel : (named Sha256.hexdigest).Lands Sha256.hexdigest (relabel "malware") := by
  intro hkey
  rw [key_relabel, keys_named, List.mem_singleton] at hkey
  have hne : event_idempotency_key Sha256.hexdigest "case-1" "analyst_correction"
      (correction "ana" "hypotheses.h1.label" (.str "malware")).payload (some "user:ana") ≠
        event_idempotency_key Sha256.hexdigest "case-1" "hypothesis_updated" notedPayload none := by
    unfold event_idempotency_key canonical_json Json.dumps
    rw [Sha256.hexdigest_ofList, Sha256.hexdigest_ofList]
    decide +kernel
  exact absurd hkey hne

/-- A first correction is shown. -/
theorem showsLast_of_lands_relabel :
    (load_facts ((named Sha256.hexdigest).step Sha256.hexdigest (relabel "malware")).row).shown
      "hypotheses.h1.label" = some (.str "malware") ∧
      ((named Sha256.hexdigest).step Sha256.hexdigest (relabel "malware")).ShowsLast := by
  have hshows := showsLast_of_lands Sha256.hexdigest "case-1"
    (.step (relabel "malware") (.step noted .refl ⟨inScope_noted, trivial⟩)
      ⟨inScope_named Sha256.hexdigest "malware", lands_relabel⟩)
  obtain ⟨c, hc⟩ := exists_accepted_named Sha256.hexdigest "malware"
  have hstep : (named Sha256.hexdigest).step Sha256.hexdigest (relabel "malware") = c := hc.step
  rw [hstep]
  obtain ⟨w, hw, hrow⟩ := (hstep ▸ hshows) _ _ hc.last
  obtain rfl := Option.some.inj hw
  exact ⟨hrow, hstep ▸ hshows⟩

/-- An analyst restores a label: of the two corrections behind the first, one is not shown, whatever
the digest. -/
theorem restored_not_shown (sha256 : String → String) :
    Transition.Admits (step sha256) InScope (opened "case-1")
        [noted, relabel "malware", relabel "benign", relabel "malware"] ∧
      ¬(([noted, relabel "malware", relabel "benign"].foldl (step sha256)
          (opened "case-1")).ShowsLast ∧
        ([noted, relabel "malware", relabel "benign", relabel "malware"].foldl (step sha256)
          (opened "case-1")).ShowsLast) := by
  obtain ⟨c₁, h₁⟩ := exists_accepted_named sha256 "malware"
  obtain ⟨c₂, h₂⟩ := h₁.next "benign"
  obtain ⟨c₃, h₃⟩ := h₂.next "malware"
  have hfirst : (named sha256).step sha256 (relabel "malware") = c₁ := h₁.step
  have hsecond : c₁.step sha256 (relabel "benign") = c₂ := h₂.step
  have hthird : c₂.step sha256 (relabel "malware") = c₃ := h₃.step
  constructor
  · refine ⟨inScope_noted, inScope_named sha256 "malware", ?_, ?_, trivial⟩
    · show ((named sha256).step sha256 (relabel "malware")).InScope (relabel "benign")
      rw [hfirst]
      exact h₁.inScope "ana" _
    · show (((named sha256).step sha256 (relabel "malware")).step sha256
        (relabel "benign")).InScope (relabel "malware")
      rw [hfirst, hsecond]
      exact h₂.inScope "ana" _
  · have hnamed : (opened "case-1").step sha256 noted = named sha256 := rfl
    simp only [List.foldl_cons, List.foldl_nil, hnamed, hfirst, hsecond, hthird]
    exact not_showsLast_of_restored rfl rfl (by simp) h₁ h₂ h₃

theorem not_showsLast :
    Transition.Admits (step Sha256.hexdigest) InScope (opened "case-1")
        [noted, relabel "malware", relabel "benign", relabel "malware"] ∧
      ¬(([noted, relabel "malware", relabel "benign"].foldl (step Sha256.hexdigest)
          (opened "case-1")).ShowsLast ∧
        ([noted, relabel "malware", relabel "benign", relabel "malware"].foldl
          (step Sha256.hexdigest) (opened "case-1")).ShowsLast) :=
  restored_not_shown Sha256.hexdigest

end Case

end Corrections

end SocTalk.Projection
