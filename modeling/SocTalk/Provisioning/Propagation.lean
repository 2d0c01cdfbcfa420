import SocTalk.Provisioning.Configuration

/-! Whether a committed change of a tenant's configuration reaches its release. -/
namespace SocTalk.Provisioning.Configuration
open Py Llm Transition

variable {D : Type} {R : Rules D}

/-! ## Reading in time -/

/-- The job has not read the row yet. -/
def State.beforeRow (s : State D) : Prop :=
  match s.job with
  | some .pending => True
  | some .claimed => True
  | _ => False

/-- The job has not read the policies yet. -/
def State.beforePolicies (s : State D) : Prop :=
  match s.job with
  | some (.loaded _) => True
  | _ => s.beforeRow

/-- The job has not finished its helm upgrade yet. -/
def State.beforeUpgrade (s : State D) : Prop :=
  match s.job with
  | some (.upgrading _) => True
  | _ => s.beforePolicies

/-- What a commit changes is still to be read, or the commit queues a job of its own. -/
def InTime (s : State D) (write : Write D) (inserts : Bool) : Prop :=
  inserts = true ∨
    ((s.write write).committed.llm = s.committed.llm ∨ s.beforeRow) ∧
      ((s.write write).committed.policies = s.committed.policies ∨ s.beforePolicies)

/-- Commits are in time, and no cancelled helm process has the last word. -/
def Timely (s : State D) : Op D → Prop
  | .commit i => ∀ write inserts, s.transactions[i]? = some (.queued write inserts) →
      accepts s write inserts = true → InTime s write inserts
  | .endOrphan k => ∀ values, s.orphans[k]? = some values →
      values = s.committed ∨ s.beforeUpgrade
  | _ => True

/-- What the job has read is what is committed. -/
def Fresh (s : State D) : Prop :=
  match s.job with
  | none => s.succeeded = true → s.rendered = s.committed
  | some .pending => True
  | some .claimed => True
  | some (.loaded row) => chartColumns row = chartColumns s.row
  | some (.upgrading values) => values = s.committed
  | some .rendered => s.rendered = s.committed

theorem fresh_of_beforeRow {s : State D} (h : s.beforeRow) : Fresh s := by
  unfold State.beforeRow at h
  unfold Fresh
  cases hjob : s.job with
  | none => simp [hjob] at h
  | some job => cases job <;> simp_all

theorem committed_eq {s t : State D} (hllm : t.committed.llm = s.committed.llm)
    (hpolicies : t.committed.policies = s.committed.policies) : t.committed = s.committed := by
  cases ht : t.committed
  cases hs : s.committed
  simp only [ht, hs] at hllm hpolicies
  rw [hllm, hpolicies]

/-- A change of what is still to be read leaves the job fresh. -/
theorem Fresh.committed {s t : State D} (h : Fresh s) (hjob : t.job = s.job)
    (hrendered : t.rendered = s.rendered) (hsucceeded : t.succeeded = s.succeeded)
    (hllm : t.committed.llm = s.committed.llm ∨ s.beforeRow)
    (hpolicies : t.committed.policies = s.committed.policies ∨ s.beforePolicies) : Fresh t := by
  unfold Fresh at h ⊢
  rw [hjob, hrendered, hsucceeded]
  cases hj : s.job with
  | none =>
    simp only [State.beforePolicies, State.beforeRow, hj, or_false] at h hllm hpolicies ⊢
    rw [committed_eq hllm hpolicies]
    exact h
  | some job =>
    cases job with
    | pending => trivial
    | claimed => trivial
    | loaded row =>
      simp only [State.beforeRow, hj, or_false] at h hllm ⊢
      exact h.trans hllm.symm
    | upgrading values =>
      simp only [State.beforePolicies, State.beforeRow, hj, or_false] at h hllm hpolicies ⊢
      rw [committed_eq hllm hpolicies]
      exact h
    | rendered =>
      simp only [State.beforePolicies, State.beforeRow, hj, or_false] at h hllm hpolicies ⊢
      rw [committed_eq hllm hpolicies]
      exact h

theorem Fresh.commit {s : State D} {i : ℕ} (h : Fresh s) (hop : Timely s (.commit i)) :
    Fresh (s.commit i) := by
  unfold State.commit
  split
  · rename_i write inserts htransaction
    split_ifs with haccepts hinserts
    · trivial
    · rcases hop write inserts htransaction haccepts with htrue | ⟨hllm, hpolicies⟩
      · exact absurd htrue hinserts
      · refine h.committed rfl ?_ ?_ hllm hpolicies
        · cases write <;> rfl
        · cases write <;> rfl
    · exact h
  · exact h

theorem Fresh.endOrphan {s : State D} {k : ℕ} (h : Fresh s) (hop : Timely s (.endOrphan k)) :
    Fresh (s.endOrphan k) := by
  unfold State.endOrphan
  split
  · rename_i values hvalues
    have hlast := hop values hvalues
    unfold Fresh at h ⊢
    cases hjob : s.job with
    | none =>
      simp only [State.beforeUpgrade, State.beforePolicies, State.beforeRow, hjob, or_false] at hlast
      exact fun _ => hlast
    | some job =>
      cases job with
      | pending => trivial
      | claimed => trivial
      | loaded row | upgrading values =>
        rw [hjob] at h
        exact h
      | rendered =>
        simp only [State.beforeUpgrade, State.beforePolicies, State.beforeRow, hjob,
          or_false] at hlast
        exact hlast
  · exact h

theorem Fresh.timeout {s : State D} {retry : Bool} (h : Fresh s) : Fresh (s.timeout retry) := by
  unfold State.timeout
  cases hjob : s.job with
  | none => exact h
  | some job =>
    cases job with
    | pending => exact h
    | claimed | loaded | upgrading | rendered =>
      cases retry with
      | true => trivial
      | false => exact fun hsucceeded => by cases hsucceeded

theorem Fresh.step {s : State D} {op : Op D} (h : Fresh s) (hop : Timely s op) :
    Fresh (step R s op) := by
  cases op with
  | begin request => exact h
  | advance i => exact h
  | commit i => exact h.commit hop
  | endOrphan k => exact h.endOrphan hop
  | timeout retry => exact h.timeout
  | roll =>
    simp only [Configuration.step]
    split_ifs
    · trivial
    · exact h
  | claim =>
    simp only [Configuration.step]
    split
    · trivial
    · exact h
  | load =>
    simp only [Configuration.step]
    split
    · rfl
    · exact h
  | compute =>
    simp only [Configuration.step]
    split
    · rename_i row hjob
      simp only [Fresh, hjob] at h
      show (⟨chartColumns row, activeDefinitions s.log⟩ : Settings D) = s.committed
      rw [h]
      rfl
    · exact h
  | helmApplied =>
    simp only [Configuration.step]
    split
    · rename_i values hjob
      simp only [Fresh, hjob] at h
      exact h
    · exact h
  | recordSuccess =>
    simp only [Configuration.step]
    split
    · rename_i hjob
      simp only [Fresh, hjob] at h
      exact fun _ => h
    · exact h

/-! ## Runs -/

/-- A release that is up to date where its last job succeeded, before anything happens. -/
structure Settled (s : State D) : Prop where
  fresh : s.succeeded = true → s.rendered = s.committed
  job : s.job = none

theorem Settled.isFresh {s : State D} (h : Settled s) : Fresh s := by
  unfold Fresh
  rw [h.job]
  exact h.fresh

/-- In a run of timely steps, the release has what is committed whenever no job is active and the
last one succeeded. -/
theorem rendered_committed {s t : State D} (h : Settled s) (hrun : Run (step R) Timely s t)
    (hidle : t.job = none) (hsucceeded : t.succeeded = true) : t.rendered = t.committed := by
  have hfresh : Fresh t := hrun.inv (fun _ _ hs hop => Fresh.step hs hop) h.isFresh
  unfold Fresh at hfresh
  rw [hidle] at hfresh
  exact hfresh hsucceeded

/-! ### A change of the model -/

def plainRules : Rules Unit := ⟨⟨id, fun _ => true⟩, ⟨false, fun _ => false⟩, fun _ => true⟩

/-- A new row, rendered. -/
def upToDate : State Unit :=
  { row := {}, log := [], job := none, succeeded := true
    rendered := ⟨chartColumns {}, activeDefinitions []⟩, transactions := [], orphans := [] }

def changeModel : Op Unit := .begin (.updateTenantLlm { model := some "gpt-5" })

def changedWhileIdle : List (Op Unit) :=
  [changeModel, .advance 0, .commit 0, .claim, .load, .compute, .helmApplied, .recordSuccess]

theorem settled_upToDate : Settled upToDate := ⟨fun _ => rfl, rfl⟩

theorem run_changedWhileIdle :
    Run (step plainRules) Timely upToDate (changedWhileIdle.foldl (step plainRules) upToDate) := by
  have hqueued : Run (step plainRules) Timely upToDate
      ([changeModel, .advance 0].foldl (step plainRules) upToDate) :=
    (Run.refl.step changeModel trivial).step (.advance 0) trivial
  have htimely : Timely ([changeModel, .advance 0].foldl (step plainRules) upToDate)
      (Op.commit 0) := by
    intro write inserts hopen _
    cases hopen
    exact Or.inl rfl
  have hloaded := ((hqueued.step _ htimely).step Op.claim trivial).step Op.load trivial
  exact ((hloaded.step Op.compute trivial).step Op.helmApplied trivial).step Op.recordSuccess trivial

theorem rendered_changedWhileIdle :
    (changedWhileIdle.foldl (step plainRules) upToDate).rendered =
      (changedWhileIdle.foldl (step plainRules) upToDate).committed :=
  rendered_committed settled_upToDate run_changedWhileIdle rfl rfl

/-- The change finds the job in flight and queues none, but the job has read the row before. -/
def changedWhileRendering : List (Op Unit) :=
  [.roll, .claim, .load, changeModel, .advance 0, .commit 0, .compute, .helmApplied,
    .recordSuccess]

theorem not_rendered_changedWhileRendering : Settled upToDate ∧
    ∃ t, Run (step plainRules) (fun _ _ => True) upToDate t ∧ t.job.isNone = true ∧
      t.succeeded = true ∧ t.rendered ≠ t.committed := by
  refine ⟨settled_upToDate, changedWhileRendering.foldl (step plainRules) upToDate, ?_, rfl, rfl, ?_⟩
  · exact Run.of_runOps (show runOps _ _ upToDate changedWhileRendering = some _ from rfl)
  · intro hsame
    have hmodel := congrArg (fun settings => settings.llm.llmModel) hsame
    exact absurd hmodel (by decide +kernel)

end SocTalk.Provisioning.Configuration
