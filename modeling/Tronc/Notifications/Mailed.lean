import Tronc.Notifications.Resend

namespace Tronc.Notifications

open Courier Transition
open Server

section Judged

variable {reading : Reading} {attempt next wait : Nat} {a : ResendAnswer} {hint : Option Nat}

theorem planRetry_eq_some : planRetry attempt hint = some wait ↔ attempt < MAX_RETRIES ∧
    hint.getD DEFAULT_RETRY_DELAY ≤ MAX_RETRY_DELAY ∧
      wait = max (hint.getD DEFAULT_RETRY_DELAY) RETRY_DELAY_FLOOR := by
  unfold planRetry
  by_cases hattempt : MAX_RETRIES ≤ attempt
  · have hover : ¬ attempt < MAX_RETRIES := Nat.not_lt.mpr hattempt
    simp [hattempt, hover]
  · have hunder : attempt < MAX_RETRIES := Nat.not_le.mp hattempt
    by_cases hdelay : hint.getD DEFAULT_RETRY_DELAY ≤ MAX_RETRY_DELAY
    · rw [if_neg hattempt]
      simp only [hunder, hdelay, if_true, true_and, Option.some.injEq]
      exact eq_comm
    · simp [hattempt, hdelay]

/-- A send is made again upon a `429` alone. -/
theorem judge_again (h : (sendWithRetry reading).judge attempt a = .again wait next) :
    next = attempt + 1 ∧ ∃ reply, a = .replied reply ∧ reply.status = .TOO_MANY_REQUESTS ∧
      planRetry attempt (retryDelayFromHeaders reply.headers) = some wait := by
  cases a with
  | failed reason => cases h
  | replied reply =>
    simp only [sendWithRetry] at h
    by_cases hsuccess : reply.status.isSuccess = true
    · rw [if_pos hsuccess] at h
      cases h
    · rw [if_neg hsuccess] at h
      by_cases hstatus : reply.status = .TOO_MANY_REQUESTS
      · rw [if_pos hstatus] at h
        cases hplan : planRetry attempt (retryDelayFromHeaders reply.headers) with
        | none =>
          rw [hplan] at h
          cases h
        | some delay =>
          rw [hplan] at h
          obtain ⟨rfl, rfl⟩ := Verdict.again.inj h
          exact ⟨rfl, reply, rfl, hstatus, hplan⟩
      · rw [if_neg hstatus] at h
        cases h

theorem judge_receipt {receipt : ResendReceipt}
    (h : (sendWithRetry reading).judge attempt a = .done (.ok receipt)) :
    ∃ reply, a = .replied reply ∧ reply.status.isSuccess = true := by
  cases a with
  | failed reason => cases Verdict.done.inj h
  | replied reply =>
    refine ⟨reply, rfl, ?_⟩
    by_contra hsuccess
    simp only [sendWithRetry, if_neg hsuccess] at h
    split at h
    · cases h
    · cases Verdict.done.inj h

theorem judge_limited {body : String}
    (h : (sendWithRetry reading).judge attempt a = .done (.error (.api .TOO_MANY_REQUESTS body))) :
    ∃ reply, a = .replied reply ∧ reply.status = .TOO_MANY_REQUESTS ∧
      planRetry attempt (retryDelayFromHeaders reply.headers) = none := by
  cases a with
  | failed reason => cases Verdict.done.inj h
  | replied reply =>
    refine ⟨reply, rfl, ?_⟩
    simp only [sendWithRetry] at h
    by_cases hsuccess : reply.status.isSuccess = true
    · rw [if_pos hsuccess] at h
      cases Verdict.done.inj h
    · rw [if_neg hsuccess] at h
      by_cases hstatus : reply.status = .TOO_MANY_REQUESTS
      · rw [if_pos hstatus] at h
        cases hplan : planRetry attempt (retryDelayFromHeaders reply.headers) with
        | none => exact ⟨hstatus, rfl⟩
        | some delay =>
          rw [hplan] at h
          cases h
      · rw [if_neg hstatus] at h
        have herror := Except.error.inj (Verdict.done.inj h)
        exact absurd (ResendError.api.inj herror).1 hstatus

/-- The attempts are counted. -/
theorem keeps_attempt (reading : Reading) :
    (sendWithRetry reading).Keeps fun n attempt => attempt = n := by
  refine ⟨rfl, ?_⟩
  intro n attempt a wait next hn h
  rw [(judge_again h).1, hn]

end Judged

/-- What becomes of one email. -/
structure Mailed
    (tr : List (Taken Mailroom (World.Event Mail ResendAnswer))) (s : Mailroom) (i : Nat)
    (sender : Mailer) : Prop where
  own : ∀ c ∈ s.copiesOf i, c.request = sender.parcel.1.post sender.parcel.2
  posts : (s.copiesOf i).length ≤ MAX_RETRIES + 1
  once : (s.takenOf i).length ≤ 1
  waits : ∀ j wait : Nat, sender.waits[j]? = some wait → ∃ reply : ResendReply,
    (answersTo tr i)[j]? = some (.replied reply) ∧ reply.status = .TOO_MANY_REQUESTS ∧
      wait = max ((retryDelayFromHeaders reply.headers).getD DEFAULT_RETRY_DELAY)
        RETRY_DELAY_FLOOR ∧ wait ≤ MAX_RETRY_DELAY
  acknowledged : ∀ receipt, sender.stage = .ended (.ok receipt) → (s.takenOf i).length = 1
  limited : ∀ body, sender.stage = .ended (.error (.api .TOO_MANY_REQUESTS body)) →
    (∀ c ∈ s.copiesOf i, c.fate = .refused) ∧ (sender.waits.length = MAX_RETRIES ∨
      ∃ reply : ResendReply, (answersTo tr i).getLast? = some (.replied reply) ∧
        MAX_RETRY_DELAY < (retryDelayFromHeaders reply.headers).getD DEFAULT_RETRY_DELAY)

section Mailing

variable {reading : Reading} {s₀ s : Mailroom}
  {tr : List (Taken Mailroom (World.Event Mail ResendAnswer))}

theorem again_refused (state : Nat) (a : ResendAnswer) (wait next : Nat)
    (h : (sendWithRetry reading).judge state a = .again wait next) (fate : Fate)
    (htells : resendHonesty.tells fate a) : fate = .refused := by
  obtain ⟨-, reply, rfl, hstatus, -⟩ := judge_again h
  exact htells.2 hstatus

/-- In every run of any number of sends, over any clients, with answers lost and copies late, each
email is posted as it is at most four times and taken in at most once; each repeat waits for the reset
that a `429` named, five seconds at most; a receipt is for an email that was taken in; and a send gives
up on a `429`, with no copy taken in, only after three waits or upon a longer reset. -/
theorem mail_taken_once (h₀ : (mailing reading).init s₀) (h : (mailing reading).Run s₀ tr s)
    {i : Nat} {sender : Mailer} (hi : s.senders[i]? = some sender) : Mailed tr s i sender := by
  have he : Explained (sendWithRetry reading) resendHonesty tr s := run_explained h₀ h
  have honce : (s.takenOf i).length ≤ 1 := he.taken_at_most_once again_refused i
  have hwaited {j wait : Nat} (hj : sender.waits[j]? = some wait) :
      ∃ (reply : ResendReply) (c : Copy ResendPost), (answersTo tr i)[j]? = some (.replied reply) ∧
        reply.status = .TOO_MANY_REQUESTS ∧
        planRetry j (retryDelayFromHeaders reply.headers) = some wait ∧
          (s.copiesOf i)[j]? = some c ∧ c.fate = .refused := by
    obtain ⟨attempt, a, next, c, rfl, hjudge, ha, hc, htells⟩ :=
      he.waited (keeps_attempt reading) hi hj
    have hrefused : c.fate = .refused := again_refused _ a wait next hjudge _ htells
    obtain ⟨-, reply, rfl, hstatus, hplan⟩ := judge_again hjudge
    exact ⟨reply, c, ha, hstatus, hplan, hc, hrefused⟩
  have hcount : sender.waits.length ≤ MAX_RETRIES := by
    by_contra hmany
    have hlt : MAX_RETRIES < sender.waits.length := Nat.not_le.mp hmany
    obtain ⟨_, _, _, _, hplan, _⟩ := hwaited (List.getElem?_eq_getElem hlt)
    exact absurd (planRetry_eq_some.mp hplan).1 (Nat.lt_irrefl _)
  refine ⟨?_, ?_, honce, ?_, ?_, ?_⟩
  · intro c hc
    obtain ⟨hmem, hsender⟩ := List.mem_filter.mp hc
    obtain ⟨own, hown, hparcel⟩ := he.owned c hmem
    rw [of_decide_eq_true hsender, hi] at hown
    rw [hparcel, Option.some.inj hown]
    rfl
  · have hcopies := he.copies_le hi
    omega
  · intro j wait hj
    obtain ⟨reply, c, ha, hstatus, hplan, -⟩ := hwaited hj
    obtain ⟨-, hdelay, hwait⟩ := planRetry_eq_some.mp hplan
    have hfloor : RETRY_DELAY_FLOOR ≤ MAX_RETRY_DELAY := by decide
    exact ⟨reply, ha, hstatus, hwait, hwait ▸ Nat.max_le.mpr ⟨hdelay, hfloor⟩⟩
  · intro receipt hended
    obtain ⟨attempt, a, c, -, hjudge, -, -, hc, htells⟩ :=
      he.ended_by (keeps_attempt reading) hi hended
    obtain ⟨reply, rfl, hsuccess⟩ := judge_receipt hjudge
    have htaken : c.fate = .taken := htells.1 hsuccess
    have hmem : c ∈ s.takenOf i :=
      List.mem_filter.mpr ⟨List.mem_of_getElem? hc, decide_eq_true htaken⟩
    have hsome : 0 < (s.takenOf i).length := List.length_pos_of_mem hmem
    omega
  · intro body hended
    obtain ⟨attempt, a, last, rfl, hjudge, hlength, ha, hlast, htells⟩ :=
      he.ended_by (keeps_attempt reading) hi hended
    obtain ⟨reply, rfl, hstatus, hplan⟩ := judge_limited hjudge
    refine ⟨?_, ?_⟩
    · intro c hc
      obtain ⟨j, hj, rfl⟩ := List.mem_iff_getElem.mp hc
      rcases Nat.lt_or_ge j sender.waits.length with hlt | hge
      · obtain ⟨_, d, _, _, _, hd, hrefused⟩ := hwaited (List.getElem?_eq_getElem hlt)
        obtain rfl := Option.some.inj ((List.getElem?_eq_getElem hj).symm.trans hd)
        exact hrefused
      · have hj' : j = sender.waits.length := by omega
        subst hj'
        obtain rfl := Option.some.inj ((List.getElem?_eq_getElem hj).symm.trans hlast)
        exact htells.2 hstatus
    · by_cases hfull : sender.waits.length = MAX_RETRIES
      · exact .inl hfull
      · refine .inr ⟨reply, ha, ?_⟩
        by_contra hshort
        have hdelay := Nat.not_lt.mp hshort
        have hroom : sender.waits.length < MAX_RETRIES := by omega
        have hsome := planRetry_eq_some.mpr ⟨hroom, hdelay, rfl⟩
        cases hplan.symm.trans hsome

/-- Bodies of which nothing is read. -/
def blankReading : Reading where
  serde := ⟨fun _ => .error "EOF while parsing a value", fun _ => none, fun _ => "", fun _ => ""⟩
  text _ _ := ""

theorem key_ne : "re_key" ≠ "" := by decide

def alerts : EmailClient := ⟨⟨"re_key", key_ne⟩, "alerts@example.org", ["ops@example.org"]⟩

def alertMail : Mail := (alerts.resend, alerts.alert "ERROR in svc" "trace")

/-- An alert that is turned away once, and taken in when it is posted again. -/
theorem turned_away_once : ∃ tr s, (mailing blankReading).Run ⟨[], []⟩ tr s ∧
    s.senders[0]? = some ⟨alertMail, [DEFAULT_RETRY_DELAY], .ended (.ok ⟨none⟩)⟩ ∧
      (s.copiesOf 0).length = 2 := by
  have hsent : (mailing blankReading).Run ⟨[], []⟩ _ _ :=
    .next (.start _) (a := .send alertMail) ⟨rfl, by intro _ _ h; cases h⟩
  have hrefused : (mailing blankReading).Run ⟨[], []⟩ _ _ :=
    .next hsent (a := .arrive 0 false) ⟨rfl, by intro _ _ h; cases h⟩
  have hlimited : (mailing blankReading).Run ⟨[], []⟩ _ _ :=
    .next hrefused (a := .answer 0 (.replied ⟨.TOO_MANY_REQUESTS, [], none⟩)) ⟨rfl, by
      intro i a h c hc
      cases h
      obtain rfl := Option.some.inj hc
      exact ⟨fun h => absurd h (by decide), fun _ => rfl⟩⟩
  have hposted : (mailing blankReading).Run ⟨[], []⟩ _ _ :=
    .next hlimited (a := .wake 0) ⟨rfl, by intro _ _ h; cases h⟩
  have htaken : (mailing blankReading).Run ⟨[], []⟩ _ _ :=
    .next hposted (a := .arrive 1 true) ⟨rfl, by intro _ _ h; cases h⟩
  have hdone : (mailing blankReading).Run ⟨[], []⟩ _ _ :=
    .next htaken (a := .answer 0 (.replied ⟨.OK, [], none⟩)) ⟨rfl, by
      intro i a h c hc
      cases h
      obtain rfl := Option.some.inj hc
      exact ⟨fun _ => rfl, fun h => absurd h (by decide)⟩⟩
  exact ⟨_, _, hdone, rfl, rfl⟩

theorem mail_taken_once_limited : ∃ s : Mailroom, (s.copiesOf 0).length = 2 ∧
    (s.takenOf 0).length = 1 := by
  obtain ⟨tr, s, hr, hs, hposts⟩ := turned_away_once
  have hmailed : Mailed tr s 0 _ := mail_taken_once rfl hr hs
  exact ⟨s, hposts, hmailed.acknowledged ⟨none⟩ rfl⟩

end Mailing

end Tronc.Notifications
