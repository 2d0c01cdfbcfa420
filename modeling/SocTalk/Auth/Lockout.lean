import Mathlib.Data.List.Infix
import SocTalk.Auth.Account
import SocTalk.Lib.Transition

/-! The lockout: how many wrong passwords are verified before it, and that none is while it lasts. -/
namespace SocTalk.Auth
open Transition

/-! ## What bounds the guessing -/

def Entry.isWrong : Entry → Bool
  | .verified matched _ => !matched
  | .committed _ => false

/-- A success, an admin reset or the start of a lockout period. -/
def Entry.isBoundary : Entry → Bool
  | .verified _ _ => false
  | .committed outcome => outcome ≠ .failed

/-- Between two boundaries. -/
def GuessesBounded (log : List Entry) : Prop :=
  ∀ segment, segment <:+: log → (∀ e ∈ segment, e.isBoundary = false) →
    segment.countP Entry.isWrong ≤ LOCKOUT_THRESHOLD

def NoneWhileLocked (log : List Entry) : Prop := ∀ matched, Entry.verified matched true ∉ log

/-- The wrong passwords since the last boundary. -/
def streak (log : List Entry) : ℕ :=
  log.foldl (fun n e => if e.isBoundary then 0 else if e.isWrong then n + 1 else n) 0

theorem streak_concat (log : List Entry) (e : Entry) :
    streak (log ++ [e]) =
      if e.isBoundary then 0 else if e.isWrong then streak log + 1 else streak log := by
  unfold streak
  rw [List.foldl_append]
  rfl

theorem countP_suffix_le {log segment : List Entry} (h : segment <:+ log)
    (hfree : ∀ e ∈ segment, e.isBoundary = false) : segment.countP Entry.isWrong ≤ streak log := by
  induction log using List.reverseRecOn generalizing segment with
  | nil =>
    rw [List.suffix_nil.mp h]
    exact Nat.zero_le _
  | append_singleton log e ih =>
    rcases List.suffix_concat_iff.mp h with rfl | ⟨front, rfl, hfront⟩
    · exact Nat.zero_le _
    · have hrest := ih hfront fun e' he' => hfree e' (List.mem_append_left _ he')
      have hlast : e.isBoundary = false := hfree e (by simp)
      rw [streak_concat, hlast, List.countP_append]
      cases hwrong : e.isWrong with
      | true =>
        simp [hwrong]
        exact hrest
      | false =>
        simp [hwrong]
        exact hrest

theorem GuessesBounded.concat {log : List Entry} (h : GuessesBounded log) {e : Entry}
    (hstreak : streak (log ++ [e]) ≤ LOCKOUT_THRESHOLD) : GuessesBounded (log ++ [e]) := by
  intro segment hsegment hfree
  rcases List.infix_concat_iff.mp hsegment with hsuffix | hold
  · exact (countP_suffix_le hsuffix hfree).trans hstreak
  · exact h segment hold hfree

theorem GuessesBounded.nil : GuessesBounded [] := by
  intro segment hsegment _
  rw [List.eq_nil_of_infix_nil hsegment]
  exact Nat.zero_le _

/-! ## One guess at a time -/

/-- The counter that the session will write, once it has verified a wrong password. -/
def Session.counts (session : Session) : Option ℕ :=
  match session.phase with
  | .verified cred _ (false, _) => some (cred.consecutiveFailures + 1)
  | .flushed (.update _ new) .failed => some new.consecutiveFailures
  | .flushed (.update _ new) .locked => some new.consecutiveFailures
  | _ => none

def State.counts (s : State) (i : ℕ) : Option ℕ := (s.session i).bind Session.counts

def State.loaded (s : State) (i : ℕ) : Option PasswordCredential :=
  (s.session i).bind fun session =>
    match session.phase with
    | .loaded cred => cred
    | _ => none

/-- A password is verified only while the counter and the lock are as they were read and no other
session has verified a wrong password and not committed it; and what such a session counts is not
rolled back. -/
def oneGuess (s : State) : Op → Prop
  | .verify i => ∀ cred ∈ s.loaded i,
      s.credential.map (fun c => (c.consecutiveFailures, c.lockedUntil)) =
          some (cred.consecutiveFailures, cred.lockedUntil) ∧
        ∀ j < s.opened, s.counts j = none
  | .abort i => s.counts i = none
  | _ => True

instance (s : State) (o : Op) : Decidable (oneGuess s o) := by
  cases o <;> unfold oneGuess <;> infer_instance

/-! ## The invariant -/

def State.failures (s : State) : ℕ := s.credential.elim 0 (·.consecutiveFailures)

/-- A failure that is sent raises the counter that was loaded, to the threshold only with the
lock. -/
def Counted (write : Write) : Outcome → Prop
  | .failed => ∃ loaded new, write = .update loaded new ∧
      new.consecutiveFailures = loaded.consecutiveFailures + 1 ∧
      new.consecutiveFailures < LOCKOUT_THRESHOLD
  | .locked => ∃ loaded new, write = .update loaded new
  | .succeeded => True
  | .reset => True

/-- At most one session counts a wrong password; the streak is at most the counter it writes, or,
where none does, the committed one. -/
structure Inv (s : State) : Prop where
  bound : ∀ i, s.opened ≤ i → s.session i = none
  bounded : GuessesBounded s.log
  unlocked : NoneWhileLocked s.log
  alone : ∀ i j, s.counts i ≠ none → s.counts j ≠ none → i = j
  counting : ∀ i n, s.counts i = some n → s.credential.isSome ∧ streak s.log ≤ LOCKOUT_THRESHOLD ∧
    (n < LOCKOUT_THRESHOLD → streak s.log ≤ n)
  idle : (∀ i, s.counts i = none) → streak s.log = 0 ∨
    streak s.log ≤ s.failures ∧ s.failures < LOCKOUT_THRESHOLD
  counted : ∀ i request write outcome, s.session i = some ⟨request, .flushed write outcome⟩ →
    Counted write outcome

section Inv

variable {s : State} {i : ℕ}

theorem Inv.streak_le (h : Inv s) : streak s.log ≤ LOCKOUT_THRESHOLD := by
  by_cases hidle : ∀ i, s.counts i = none
  · rcases h.idle hidle with hzero | ⟨hle, hlt⟩
    · omega
    · omega
  · obtain ⟨j, hj⟩ := not_forall.mp hidle
    obtain ⟨n, hn⟩ := Option.ne_none_iff_exists'.mp hj
    exact (h.counting j n hn).2.1

theorem Inv.lt_opened (h : Inv s) {session : Session} (hs : s.session i = some session) :
    i < s.opened := by
  by_contra hge
  rw [h.bound i (by omega)] at hs
  cases hs

theorem set_self (s : State) (i : ℕ) (session : Option Session) :
    (s.set i session).session i = session := Function.update_self ..

theorem set_of_ne (s : State) {i j : ℕ} (h : j ≠ i) (session : Option Session) :
    (s.set i session).session j = s.session j := Function.update_of_ne h ..

theorem counts_set_self (s : State) (i : ℕ) (session : Option Session) :
    (s.set i session).counts i = session.bind Session.counts := by
  unfold State.counts
  rw [set_self]

theorem counts_set_of_ne (s : State) {i j : ℕ} (h : j ≠ i) (session : Option Session) :
    (s.set i session).counts j = s.counts j := by
  unfold State.counts
  rw [set_of_ne s h]

/-- A session goes on and counts what it counted. -/
theorem Inv.set (h : Inv s) (hi : i < s.opened) {session : Option Session}
    (hcounts : session.bind Session.counts = s.counts i)
    (hcounted : ∀ request write outcome, session = some ⟨request, .flushed write outcome⟩ →
      Counted write outcome) : Inv (s.set i session) := by
  have hsame : ∀ j, (s.set i session).counts j = s.counts j := by
    intro j
    by_cases hj : j = i
    · rw [hj, counts_set_self, hcounts]
    · rw [counts_set_of_ne s hj]
  refine ⟨fun j hj => ?_, h.bounded, h.unlocked, fun j k => ?_, fun j n => ?_, fun hidle => ?_,
    fun j request write outcome hs => ?_⟩
  · have hne : j ≠ i := by
      rintro rfl
      have hge : s.opened ≤ j := hj
      omega
    rw [set_of_ne s hne]
    exact h.bound j hj
  · rw [hsame, hsame]
    exact h.alone j k
  · rw [hsame]
    exact h.counting j n
  · exact h.idle fun j => (hsame j).symm.trans (hidle j)
  · by_cases hj : j = i
    · subst hj
      rw [set_self] at hs
      exact hcounted request write outcome hs
    · rw [set_of_ne s hj] at hs
      exact h.counted j request write outcome hs

/-- A session that counts nothing goes on to another phase that counts nothing. -/
theorem Inv.enter (h : Inv s) (hi : i < s.opened) (hcounts : s.counts i = none) {request : Request}
    {phase : Phase} (hnew : (Session.mk request phase).counts = none)
    (hcounted : ∀ write outcome, phase = .flushed write outcome → Counted write outcome) :
    Inv (s.enter i request phase) := by
  refine h.set hi (by rw [hcounts]; exact hnew) fun request' write outcome hs => ?_
  have hphase : phase = .flushed write outcome := congrArg Session.phase (Option.some.inj hs)
  exact hcounted write outcome hphase

theorem Inv.close (h : Inv s) (hi : i < s.opened) (hcounts : s.counts i = none) :
    Inv (s.close i) := by
  refine h.set hi ?_ nofun
  rw [hcounts]
  rfl

/-- A log entry that leaves the streak as it is. -/
theorem Inv.note (h : Inv s) {e : Entry} (hstreak : streak (s.log ++ [e]) = streak s.log)
    (hunlocked : ∀ matched, e ≠ .verified matched true) : Inv { s with log := s.log ++ [e] } := by
  refine ⟨h.bound, h.bounded.concat ?_, fun matched hmem => ?_, h.alone, fun j n hn => ?_,
    fun hidle => ?_, h.counted⟩
  · rw [hstreak]
    exact h.streak_le
  · rcases List.mem_append.mp hmem with hmem | hmem
    · exact h.unlocked matched hmem
    · exact hunlocked matched (List.mem_singleton.mp hmem).symm
  · show _ ∧ streak (s.log ++ [e]) ≤ _ ∧ (_ → streak (s.log ++ [e]) ≤ n)
    rw [hstreak]
    exact h.counting j n hn
  · show streak (s.log ++ [e]) = 0 ∨ streak (s.log ++ [e]) ≤ s.failures ∧ _
    rw [hstreak]
    exact h.idle hidle

/-! ## Statement by statement -/

theorem Inv.begin (h : Inv s) (request : Request) :
    Inv { s.enter s.opened request .begun with opened := s.opened + 1 } := by
  have hopen : Inv { s with opened := s.opened + 1 } :=
    ⟨fun j hj => h.bound j (by have hle : s.opened + 1 ≤ j := hj; omega), h.bounded, h.unlocked,
      h.alone, h.counting, h.idle, h.counted⟩
  refine hopen.enter (Nat.lt_succ_self _) ?_ rfl nofun
  show (s.session s.opened).bind Session.counts = none
  rw [h.bound s.opened le_rfl]
  rfl

theorem Inv.lookup (h : Inv s) (hi : i < s.opened) (hcounts : s.counts i = none)
    (request : Request) : Inv (Auth.lookup s i request) := by
  have hclose := h.close hi hcounts
  have henter : ∀ request, Inv (s.enter i request .found) :=
    fun request => h.enter hi hcounts rfl nofun
  unfold Auth.lookup
  split
  · split
    · exact henter _
    · exact hclose
  · split
    · exact henter _
    · exact hclose
  · exact henter _

theorem isLocked_eq {c cred : PasswordCredential} (h : c.lockedUntil = cred.lockedUntil) (now : ℕ) :
    c.isLocked now = cred.isLocked now := by
  unfold PasswordCredential.isLocked
  rw [h]

/-- A wrong password where no other is counted yet. -/
theorem Inv.wrong (h : Inv s) (hi : i < s.opened) (hidle : ∀ j, s.counts j = none)
    {cred : PasswordCredential} (hcred : s.credential.isSome)
    (hsame : s.failures = cred.consecutiveFailures) (request : Request) (now : ℕ)
    (maybeNewHash : Option String) :
    Inv { s.enter i request (.verified cred now (false, maybeNewHash)) with
      log := s.log ++ [.verified false false] } := by
  have hstreak : streak (s.log ++ [.verified false false]) = streak s.log + 1 := by
    rw [streak_concat]
    rfl
  have hcounts : ∀ j n, (s.enter i request (.verified cred now (false, maybeNewHash))).counts j =
      some n → j = i ∧ n = cred.consecutiveFailures + 1 := by
    intro j n hn
    by_cases hj : j = i
    · unfold State.enter at hn
      rw [hj, counts_set_self] at hn
      exact ⟨hj, (Option.some.inj hn).symm⟩
    · unfold State.enter at hn
      rw [counts_set_of_ne s hj, hidle j] at hn
      cases hn
  have hle : streak s.log + 1 ≤ LOCKOUT_THRESHOLD ∧ streak s.log ≤ cred.consecutiveFailures := by
    rcases h.idle hidle with hzero | ⟨hle, hlt⟩
    · rw [hzero]
      exact ⟨by decide, Nat.zero_le _⟩
    · rw [hsame] at hle hlt
      omega
  refine ⟨fun j hj => ?_, h.bounded.concat (by rw [hstreak]; exact hle.1), fun matched hmem => ?_,
    fun j k hj hk => ?_, fun j n hn => ?_, fun hnone => ?_, fun j request' write outcome hs => ?_⟩
  · have hne : j ≠ i := by
      rintro rfl
      have hge : s.opened ≤ j := hj
      omega
    exact (set_of_ne s hne _).trans (h.bound j hj)
  · rcases List.mem_append.mp hmem with hmem | hmem
    · exact h.unlocked matched hmem
    · cases List.mem_singleton.mp hmem
  · obtain ⟨n, hn⟩ := Option.ne_none_iff_exists'.mp hj
    obtain ⟨m, hm⟩ := Option.ne_none_iff_exists'.mp hk
    rw [(hcounts j n hn).1, (hcounts k m hm).1]
  · obtain ⟨-, rfl⟩ := hcounts j n hn
    show s.credential.isSome ∧ streak (s.log ++ [.verified false false]) ≤ _ ∧ (_ →
      streak (s.log ++ [.verified false false]) ≤ _)
    rw [hstreak]
    exact ⟨hcred, hle.1, fun _ => by omega⟩
  · have hself := hnone i
    have hsome : (s.enter i request (.verified cred now (false, maybeNewHash))).counts i =
        some (cred.consecutiveFailures + 1) := counts_set_self ..
    cases hsome.symm.trans hself
  · by_cases hj : j = i
    · subst hj
      have hphase := (set_self s j _).symm.trans hs
      cases hphase
    · exact h.counted j request' write outcome ((set_of_ne s hj _).symm.trans hs)

theorem counts_of_session {session : Session} (hs : s.session i = some session) :
    s.counts i = session.counts := by
  unfold State.counts
  rw [hs]
  rfl

theorem Inv.verify (h : Inv s) {request : Request} {cred : Option PasswordCredential}
    (hs : s.session i = some ⟨request, .loaded cred⟩) (hc : oneGuess s (.verify i))
    (hasher : PasswordHasher) (plain : String) :
    Inv (Auth.verify hasher s i request plain cred) := by
  have hi := h.lt_opened hs
  have hcounts : s.counts i = none := counts_of_session hs
  unfold Auth.verify
  split
  · exact h.close hi hcounts
  · rename_i cred
    split
    · exact h.close hi hcounts
    · rename_i hunlocked
      have hloaded : cred ∈ s.loaded i := by
        unfold State.loaded
        rw [hs]
        rfl
      obtain ⟨hsame, hidle⟩ := hc cred hloaded
      obtain ⟨current, hcurrent, hcolumns⟩ := Option.map_eq_some_iff.mp hsame
      obtain ⟨hfailures, hlock⟩ := Prod.mk.inj hcolumns
      have hlocked : s.isLocked = false := by
        unfold State.isLocked
        rw [hcurrent]
        exact (isLocked_eq hlock s.clock).trans (Bool.eq_false_iff.mpr hunlocked)
      have hidle' : ∀ j, s.counts j = none := by
        intro j
        by_cases hj : j < s.opened
        · exact hidle j hj
        · unfold State.counts
          rw [h.bound j (by omega)]
          rfl
      dsimp only
      rw [hlocked]
      unfold verifyPassword
      split
      · have henter : ∀ maybeNewHash,
            Inv (s.enter i request (.verified cred s.clock (true, maybeNewHash))) :=
          fun maybeNewHash => h.enter hi hcounts rfl nofun
        refine (henter _).note ?_ nofun
        rw [streak_concat]
        rfl
      · refine h.wrong hi hidle' (by rw [hcurrent]; rfl) ?_ request s.clock none
        unfold State.failures
        rw [hcurrent]
        exact hfailures

theorem Inv.send (h : Inv s) {request : Request} {write : Write} {outcome : Outcome}
    (hi : i < s.opened) (hcounts : (Session.mk request (.flushed write outcome)).counts = s.counts i)
    (hcounted : Counted write outcome) (hinsert : ∀ new, write = .insert new → s.counts i = none) :
    Inv (Auth.send s i request write outcome) := by
  unfold Auth.send
  split
  · exact h
  · have henter : Inv (s.enter i request (.flushed write outcome)) := by
      refine h.set hi hcounts fun request' write' outcome' hnew => ?_
      have hphase : Phase.flushed write outcome = .flushed write' outcome' :=
        congrArg Session.phase (Option.some.inj hnew)
      obtain ⟨rfl, rfl⟩ := Phase.flushed.inj hphase
      exact hcounted
    cases write with
    | update loaded new => exact henter
    | insert new =>
      cases s.credential with
      | none => exact henter
      | some current => exact h.close hi (hinsert new rfl)

theorem Inv.send_wrong (h : Inv s) {request : Request} {cred : PasswordCredential} {now : ℕ}
    (hi : i < s.opened) (hcounts : s.counts i = some (cred.consecutiveFailures + 1)) :
    Inv (Auth.send s i request (.update cred (wrongPassword cred now).1)
      (wrongPassword cred now).2) := by
  unfold wrongPassword
  dsimp only
  split
  · exact h.send hi hcounts.symm ⟨cred, _, rfl⟩ nofun
  · rename_i hlt
    exact h.send hi hcounts.symm ⟨cred, _, rfl, rfl, Nat.lt_of_not_le hlt⟩ nofun

theorem Inv.answer (h : Inv s) {request : Request} {cred : PasswordCredential} {now : ℕ}
    {result : Bool × Option String} (hs : s.session i = some ⟨request, .verified cred now result⟩)
    (hasher : PasswordHasher) : Inv (Auth.answer hasher s i cred now result request) := by
  have hi := h.lt_opened hs
  obtain ⟨matched, maybeNewHash⟩ := result
  have hcounts := counts_of_session hs
  cases request with
  | authenticate password slugRefused =>
    cases matched with
    | false => exact h.send_wrong hi hcounts
    | true =>
      unfold Auth.answer authenticate
      cases slugRefused with
      | true => exact h.close hi hcounts
      | false => exact h.send hi hcounts.symm trivial nofun
  | changePassword oldPassword newPassword =>
    cases matched with
    | false => exact h.send_wrong hi hcounts
    | true =>
      unfold Auth.answer changePassword
      dsimp only
      by_cases hsame : newPassword = oldPassword
      · rw [if_pos hsame]
        exact h.close hi hcounts
      · rw [if_neg hsame]
        exact h.send hi hcounts.symm trivial nofun
  | adminResetPassword newPlain => exact h

theorem isSome_apply (write : Write) {current : Option PasswordCredential} (h : current.isSome) :
    (write.apply current).isSome := by
  cases write with
  | update loaded new =>
    rw [← Option.isSome_map] at h
    exact h
  | insert new => rfl

/-- The counter that a failure raised is written, whatever else has changed. -/
theorem failures_flush {loaded new : PasswordCredential}
    (h : new.consecutiveFailures = loaded.consecutiveFailures + 1) (current : PasswordCredential) :
    (PasswordCredential.flush loaded new current).consecutiveFailures = new.consecutiveFailures :=
  if_neg (by omega)

theorem Inv.commit (h : Inv s) {request : Request} {write : Write} {outcome : Outcome}
    (hs : s.session i = some ⟨request, .flushed write outcome⟩) :
    Inv { s.close i with
      credential := write.apply s.credential
      log := s.log ++ [.committed outcome] } := by
  have hi := h.lt_opened hs
  have hcounts : ∀ j n, (s.close i).counts j = some n → j ≠ i ∧ s.counts j = some n := by
    intro j n hn
    by_cases hj : j = i
    · unfold State.close at hn
      rw [hj, counts_set_self] at hn
      cases hn
    · unfold State.close at hn
      rw [counts_set_of_ne s hj] at hn
      exact ⟨hj, hn⟩
  have hcounted := h.counted i request write outcome hs
  -- A failure keeps the streak, and its session is the one that counted; all else ends it.
  have hstreak : streak (s.log ++ [.committed outcome]) = 0 ∨ outcome = .failed ∧
      streak (s.log ++ [.committed outcome]) = streak s.log ∧ s.counts i ≠ none := by
    rw [streak_concat]
    cases outcome with
    | failed =>
      obtain ⟨loaded, new, rfl, -, -⟩ := hcounted
      refine Or.inr ⟨rfl, rfl, ?_⟩
      rw [counts_of_session hs]
      nofun
    | locked => exact Or.inl rfl
    | succeeded => exact Or.inl rfl
    | reset => exact Or.inl rfl
  have hle : streak (s.log ++ [.committed outcome]) ≤ LOCKOUT_THRESHOLD := by
    rcases hstreak with hzero | ⟨-, hsame, -⟩
    · omega
    · rw [hsame]
      exact h.streak_le
  refine ⟨fun j hj => ?_, h.bounded.concat hle, fun matched hmem => ?_, fun j k hj hk => ?_,
    fun j n hn => ?_, fun _ => ?_, fun j request' write' outcome' hs' => ?_⟩
  · have hne : j ≠ i := by
      rintro rfl
      have hge : s.opened ≤ j := hj
      omega
    exact (set_of_ne s hne none).trans (h.bound j hj)
  · rcases List.mem_append.mp hmem with hmem | hmem
    · exact h.unlocked matched hmem
    · cases List.mem_singleton.mp hmem
  · obtain ⟨n, hn⟩ := Option.ne_none_iff_exists'.mp hj
    obtain ⟨m, hm⟩ := Option.ne_none_iff_exists'.mp hk
    refine h.alone j k ?_ ?_
    · rw [(hcounts j n hn).2]
      nofun
    · rw [(hcounts k m hm).2]
      nofun
  · obtain ⟨hne, hold⟩ := hcounts j n hn
    obtain ⟨hsome, -, -⟩ := h.counting j n hold
    refine ⟨isSome_apply write hsome, hle, fun _ => ?_⟩
    rcases hstreak with hzero | ⟨-, -, hself⟩
    · exact hzero.le.trans (Nat.zero_le n)
    · exact absurd (h.alone j i (by rw [hold]; nofun) hself) hne
  · rcases hstreak with hzero | ⟨rfl, hsame, -⟩
    · exact Or.inl hzero
    · obtain ⟨loaded, new, rfl, hnew, hlt⟩ := hcounted
      obtain ⟨hsome, -, hstreak⟩ := h.counting i _ (counts_of_session hs)
      obtain ⟨current, hcurrent⟩ := Option.isSome_iff_exists.mp hsome
      have hwritten : ∀ s' : State, s'.credential = (Write.update loaded new).apply s.credential →
          s'.failures = new.consecutiveFailures := by
        intro s' hs'
        unfold State.failures
        rw [hs', hcurrent]
        exact failures_flush hnew current
      rw [hwritten _ rfl]
      exact Or.inr ⟨hsame.le.trans (hstreak hlt), hlt⟩
  · by_cases hj : j = i
    · subst hj
      cases (set_self s j none).symm.trans hs'
    · exact h.counted j request' write' outcome' ((set_of_ne s hj none).symm.trans hs')

theorem Inv.step {hasher : PasswordHasher} (h : Inv s) {o : Op} (hc : oneGuess s o) :
    Inv (step hasher s o) := by
  cases o with
  | tick d => exact ⟨h.bound, h.bounded, h.unlocked, h.alone, h.counting, h.idle, h.counted⟩
  | setActive active =>
    exact ⟨h.bound, h.bounded, h.unlocked, h.alone, h.counting, h.idle, h.counted⟩
  | begin request => exact h.begin request
  | lookup i =>
    unfold Auth.step
    dsimp only
    split
    · rename_i request hs
      exact h.lookup (h.lt_opened hs) (counts_of_session hs) request
    · exact h
  | load i =>
    unfold Auth.step
    dsimp only
    split
    · rename_i request hs
      exact h.enter (h.lt_opened hs) (counts_of_session hs) rfl nofun
    · exact h
  | verify i =>
    unfold Auth.step
    dsimp only
    split
    · rename_i hs
      exact h.verify hs hc hasher _
    · rename_i hs
      exact h.verify hs hc hasher _
    · exact h
  | flush i =>
    unfold Auth.step
    dsimp only
    split
    · rename_i hs
      exact h.answer hs hasher
    · rename_i newPlain cred hs
      have hcounts := counts_of_session hs
      refine h.send (h.lt_opened hs) ?_ trivial fun _ _ => hcounts
      rw [hcounts]
      cases cred <;> rfl
    · exact h
  | commit i =>
    unfold Auth.step
    dsimp only
    split
    · rename_i hs
      exact h.commit hs
    · exact h
  | abort i =>
    show Inv (s.close i)
    by_cases hi : i < s.opened
    · exact h.close hi hc
    · have hsame : s.close i = s := by
        unfold State.close State.set
        rw [Function.update_eq_self_iff.mpr (h.bound i (by omega)).symm]
      rw [hsame]
      exact h

end Inv

/-! ## Every run -/

/-- Where passwords are verified one guess at a time, the wrong ones between two successes, resets
or lockout periods are at most as many as the threshold, and none is verified in a lockout. -/
theorem guesses_bounded {hasher : PasswordHasher} {s₀ s : State}
    (hnone : ∀ i, s₀.session i = none) (hlog : s₀.log = [])
    (hrun : Run (step hasher) oneGuess s₀ s) : GuessesBounded s.log ∧ NoneWhileLocked s.log := by
  have hcounts : ∀ i, s₀.counts i = none := by
    intro i
    unfold State.counts
    rw [hnone]
    rfl
  have h0 : Inv s₀ := by
    refine ⟨fun i _ => hnone i, ?_, ?_, fun i _ hi => ?_, fun i n hn => ?_, fun _ => ?_,
      fun i request write outcome hs => ?_⟩
    · rw [hlog]
      exact GuessesBounded.nil
    · rw [hlog]
      exact fun _ => List.not_mem_nil
    · exact absurd (hcounts i) hi
    · rw [hcounts i] at hn
      cases hn
    · rw [hlog]
      exact Or.inl rfl
    · rw [hnone i] at hs
      cases hs
  have hinv : Inv s := hrun.inv (fun _ _ h hc => h.step hc) h0
  exact ⟨hinv.bounded, hinv.unlocked⟩

def plainHasher : PasswordHasher := ⟨fun _ plain => plain, fun stored plain => stored == plain,
  fun _ => false⟩

def account : State where
  clock := 0
  active := true
  credential := some ⟨"the right password", false, 0, none, 0, none⟩
  opened := 0
  session _ := none
  log := []

def attempt (i : ℕ) (request : Request) : List Op :=
  [.begin request, .lookup i, .load i, .verify i, .flush i, .commit i]

/-- Ten wrong sign-ins, one that finds the account locked, and a wrong password change after the
lockout. -/
def oneByOne : List Op :=
  (List.range 11).flatMap (fun i => attempt i (.authenticate "a wrong password" false)) ++
    .tick LOCKOUT_DURATION :: attempt 11 (.changePassword "a wrong password" "another password")

theorem guesses_bounded_oneByOne :
    ∃ s : State, s.log.countP Entry.isWrong = 11 ∧ s.isLocked = true ∧ GuessesBounded s.log ∧
      NoneWhileLocked s.log := by
  obtain ⟨s, hs⟩ : ∃ s, runOps (step plainHasher) oneGuess account oneByOne = some s :=
    Option.isSome_iff_exists.mp (by decide +kernel)
  have hfacts : (runOps (step plainHasher) oneGuess account oneByOne).map
      (fun s : State => (s.log.countP Entry.isWrong, s.isLocked)) = some (11, true) := by
    decide +kernel
  rw [hs] at hfacts
  obtain ⟨hcount, hlocked⟩ := Prod.mk.inj (Option.some.inj hfacts)
  exact ⟨s, hcount, hlocked, guesses_bounded (fun _ => rfl) rfl (Run.of_runOps hs)⟩

/-- Eleven sign-ins read the credential before the first of them writes its failure. -/
def inParallel : List Op :=
  (List.range 11).flatMap (fun i =>
    [.begin (.authenticate "a wrong password" false), .lookup i, .load i]) ++
  (List.range 11).flatMap fun i => [.verify i, .flush i, .commit i]

theorem inParallel_unbounded :
    ¬∀ ops : List Op, GuessesBounded (ops.foldl (step plainHasher) account).log ∧
      NoneWhileLocked (ops.foldl (step plainHasher) account).log := by
  intro h
  have hbounded := (h inParallel).1 _ (List.infix_refl _) (by decide +kernel)
  have hcount : (inParallel.foldl (step plainHasher) account).log.countP Entry.isWrong = 11 := by
    decide +kernel
  rw [hcount] at hbounded
  revert hbounded
  decide

end SocTalk.Auth
