import Tronc.Notifications.PostHog

namespace Tronc.Notifications

open Courier Transition
open Server

theorem eventBody_uuid (client : PostHogClient) (capture : Capture) :
    (client.eventBody capture).get "uuid" = some (.string capture.1.uuid) := rfl

section Judged

variable {client : PostHogClient} {attempt next : Attempt} {wait : Nat} {a : Sent}

theorem Attempt.failed_again (h : attempt.failed = .again wait next) :
    attempt.number < MAX_ATTEMPTS ∧ wait = attempt.backoff ∧ next = attempt.next := by
  unfold Attempt.failed at h
  by_cases hlast : MAX_ATTEMPTS ≤ attempt.number
  · rw [if_pos hlast] at h
    cases h
  · rw [if_neg hlast] at h
    obtain ⟨rfl, rfl⟩ := Verdict.again.inj h
    exact ⟨Nat.not_le.mp hlast, rfl, rfl⟩

theorem Attempt.failed_done {result : Delivery} (h : attempt.failed = .done result) :
    MAX_ATTEMPTS ≤ attempt.number ∧ result = .gaveUp := by
  unfold Attempt.failed at h
  by_cases hlast : MAX_ATTEMPTS ≤ attempt.number
  · rw [if_pos hlast] at h
    exact ⟨hlast, (Verdict.done.inj h).symm⟩
  · rw [if_neg hlast] at h
    cases h

theorem judge_cases (client : PostHogClient) (attempt : Attempt) (a : Sent) :
    a.isFailure = true ∧ client.send.judge attempt a = attempt.failed ∨
    (∃ status : StatusCode, a = .replied status ∧ status.isSuccess = true) ∧
      client.send.judge attempt a = .done .accepted ∨
    (∃ status : StatusCode, a = .replied status ∧ status.isSuccess = false ∧
      status.isServerError = false) ∧ client.send.judge attempt a = .done .refused := by
  cases a with
  | failed reason => exact .inl ⟨rfl, rfl⟩
  | replied status =>
    cases hsuccess : status.isSuccess with
    | true => exact .inr (.inl ⟨⟨status, rfl, hsuccess⟩, by simp [PostHogClient.send, hsuccess]⟩)
    | false =>
      cases herror : status.isServerError with
      | true =>
        refine .inl ⟨?_, ?_⟩
        · simp [Sent.isFailure, hsuccess, herror]
        · simp [PostHogClient.send, hsuccess, herror]
      | false =>
        refine .inr (.inr ⟨⟨status, rfl, hsuccess, herror⟩, ?_⟩)
        simp [PostHogClient.send, hsuccess, herror]

/-- An event is sent again upon a failure alone. -/
theorem judge_resend (h : client.send.judge attempt a = .again wait next) : a.isFailure = true ∧
    attempt.number < MAX_ATTEMPTS ∧ wait = attempt.backoff ∧ next = attempt.next := by
  rcases judge_cases client attempt a with ⟨hfailure, hjudge⟩ | ⟨_, hjudge⟩ | ⟨_, hjudge⟩
  · rw [hjudge] at h
    exact ⟨hfailure, Attempt.failed_again h⟩
  · cases hjudge.symm.trans h
  · cases hjudge.symm.trans h

theorem judge_accepted (h : client.send.judge attempt a = .done .accepted) :
    ∃ status : StatusCode, a = .replied status ∧ status.isSuccess = true := by
  rcases judge_cases client attempt a with ⟨_, hjudge⟩ | ⟨hstatus, _⟩ | ⟨_, hjudge⟩
  · rw [hjudge] at h
    cases (Attempt.failed_done h).2
  · exact hstatus
  · cases hjudge.symm.trans h

theorem judge_refused (h : client.send.judge attempt a = .done .refused) :
    ∃ status : StatusCode, a = .replied status ∧ status.isSuccess = false ∧
      status.isServerError = false := by
  rcases judge_cases client attempt a with ⟨_, hjudge⟩ | ⟨_, hjudge⟩ | ⟨hstatus, _⟩
  · rw [hjudge] at h
    cases (Attempt.failed_done h).2
  · cases hjudge.symm.trans h
  · exact hstatus

theorem judge_gaveUp (h : client.send.judge attempt a = .done .gaveUp) :
    a.isFailure = true ∧ MAX_ATTEMPTS ≤ attempt.number := by
  rcases judge_cases client attempt a with ⟨hfailure, hjudge⟩ | ⟨_, hjudge⟩ | ⟨_, hjudge⟩
  · rw [hjudge] at h
    exact ⟨hfailure, (Attempt.failed_done h).1⟩
  · cases hjudge.symm.trans h
  · cases hjudge.symm.trans h

end Judged

/-- The wait after so many others. -/
def backoffAfter (first : Nat) : Nat → Nat
  | 0 => first
  | n + 1 => min (2 * backoffAfter first n) DURATION_MAX

theorem keeps_backoff (client : PostHogClient) : client.send.Keeps fun n attempt =>
    attempt = ⟨n + 1, backoffAfter client.firstBackoff n⟩ := by
  refine ⟨rfl, ?_⟩
  intro n attempt a wait next hattempt h
  rw [(judge_resend h).2.2.2, hattempt]
  rfl

/-- What becomes of one capture. -/
structure Delivered (client : PostHogClient) (tr : List (Taken Postbox (World.Event Capture Sent)))
    (s : Postbox) (i : Nat) (sender : Sender Capture Attempt Delivery) : Prop where
  own : ∀ c ∈ s.copiesOf i, c.request = client.post sender.parcel
  posts : (s.copiesOf i).length ≤ MAX_ATTEMPTS
  waits : ∀ j wait : Nat, sender.waits[j]? = some wait →
    wait = backoffAfter client.firstBackoff j
  accepted : sender.stage = .ended .accepted → s.takenOf i ≠ []
  refused : sender.stage = .ended .refused →
    ∃ status, (answersTo tr i).getLast? = some (.replied status) ∧
      status.isSuccess = false ∧ status.isServerError = false
  gaveUp : sender.stage = .ended .gaveUp → (s.copiesOf i).length = MAX_ATTEMPTS ∧
    ∀ a ∈ answersTo tr i, a.isFailure = true

section Capturing

variable {client : PostHogClient} {s₀ s t : Postbox}
  {e : World.Event Capture Sent}
  {tr : List (Taken Postbox (World.Event Capture Sent))}

theorem delivered (he : Explained client.send postHogHonesty tr s) {i : Nat}
    {sender : Sender Capture Attempt Delivery} (hi : s.senders[i]? = some sender) :
    Delivered client tr s i sender := by
  have hwaited {j wait : Nat} (hj : sender.waits[j]? = some wait) : ∃ a : Sent,
      (answersTo tr i)[j]? = some a ∧ a.isFailure = true ∧ j + 1 < MAX_ATTEMPTS ∧
        wait = backoffAfter client.firstBackoff j := by
    obtain ⟨attempt, a, next, c, rfl, hjudge, ha, -, -⟩ := he.waited (keeps_backoff client) hi hj
    obtain ⟨hfailure, hroom, hwait, -⟩ := judge_resend hjudge
    exact ⟨a, ha, hfailure, hroom, hwait⟩
  have hcount : sender.waits.length < MAX_ATTEMPTS := by
    by_contra hmany
    have hthree : MAX_ATTEMPTS ≤ sender.waits.length := Nat.not_lt.mp hmany
    have hlt : MAX_ATTEMPTS - 1 < sender.waits.length := by
      have hpos : 0 < MAX_ATTEMPTS := by decide
      omega
    obtain ⟨_, _, _, hroom, _⟩ := hwaited (List.getElem?_eq_getElem hlt)
    omega
  have hended {result : Delivery} (hstage : sender.stage = .ended result) :
      ∃ (a : Sent) (c : Copy PostHogClient.Post), client.send.judge
        ⟨sender.waits.length + 1, backoffAfter client.firstBackoff sender.waits.length⟩ a =
          .done result ∧ (s.copiesOf i).length = sender.waits.length + 1 ∧
        (answersTo tr i).getLast? = some a ∧ c ∈ s.copiesOf i ∧ postHogHonesty.tells c.fate a := by
    obtain ⟨attempt, a, c, rfl, hjudge, hlength, ha, hc, htells⟩ :=
      he.ended_by (keeps_backoff client) hi hstage
    exact ⟨a, c, hjudge, hlength, ha, List.mem_of_getElem? hc, htells⟩
  refine ⟨?_, ?_, ?_, ?_, ?_, ?_⟩
  · intro c hc
    obtain ⟨hmem, hsender⟩ := List.mem_filter.mp hc
    obtain ⟨own, hown, hparcel⟩ := he.owned c hmem
    rw [of_decide_eq_true hsender, hi] at hown
    rw [hparcel, Option.some.inj hown]
    rfl
  · have hcopies := he.copies_le hi
    omega
  · intro j wait hj
    obtain ⟨_, _, _, _, hwait⟩ := hwaited hj
    exact hwait
  · intro hstage hnone
    obtain ⟨a, c, hjudge, -, -, hc, htells⟩ := hended hstage
    obtain ⟨status, rfl, hsuccess⟩ := judge_accepted hjudge
    have htaken : c.fate = .taken := htells hsuccess
    have hmem : c ∈ s.takenOf i := List.mem_filter.mpr ⟨hc, decide_eq_true htaken⟩
    rw [hnone] at hmem
    cases hmem
  · intro hstage
    obtain ⟨a, -, hjudge, -, ha, -, -⟩ := hended hstage
    obtain ⟨status, rfl, hstatus⟩ := judge_refused hjudge
    exact ⟨status, ha, hstatus⟩
  · intro hstage
    obtain ⟨a, -, hjudge, hlength, ha, -, -⟩ := hended hstage
    obtain ⟨hfailure, hnumber⟩ := judge_gaveUp hjudge
    have hlast : MAX_ATTEMPTS ≤ sender.waits.length + 1 := hnumber
    refine ⟨by omega, ?_⟩
    intro b hb
    obtain ⟨j, hj, rfl⟩ := List.mem_iff_getElem.mp hb
    have hcounted : (answersTo tr i).length = sender.waits.length + 1 := by
      rw [he.counted i sender hi, hstage]
      rfl
    rcases Nat.lt_or_ge j sender.waits.length with hlt | hge
    · obtain ⟨b, hb, hfailed, -, -⟩ := hwaited (List.getElem?_eq_getElem hlt)
      obtain rfl := Option.some.inj ((List.getElem?_eq_getElem hj).symm.trans hb)
      exact hfailed
    · have hj' : j = (answersTo tr i).length - 1 := by omega
      rw [List.getLast?_eq_getElem?, ← hj'] at ha
      obtain rfl := Option.some.inj ((List.getElem?_eq_getElem hj).symm.trans ha)
      exact hfailure

/-- Captures have ids of their own. -/
theorem run_distinct (h₀ : (capturing client).init s₀) (h : (capturing client).Run s₀ tr s) :
    ((s.senders.map Sender.parcel).map fun capture => capture.1.uuid).Nodup := by
  refine h.invariant (P := fun s => ((s.senders.map Sender.parcel).map fun capture =>
    capture.1.uuid).Nodup) ?_ ?_
  · intro s e t hs hstep
    rcases World.step_parcels hstep.2.1 with hsame | ⟨capture, rfl, hnew⟩
    · rw [hsame]
      exact hs
    · rw [hnew, List.map_append, List.nodup_append]
      refine ⟨hs, List.nodup_singleton _, ?_⟩
      intro uuid huuid other hother
      obtain ⟨_, hparcel, rfl⟩ := List.mem_map.mp huuid
      obtain ⟨sender, hsender, rfl⟩ := List.mem_map.mp hparcel
      rw [List.mem_singleton.mp hother]
      exact hstep.1 capture rfl sender hsender
  · obtain rfl := h₀
    exact List.nodup_nil

theorem mem_takenBodies (he : Explained client.send postHogHonesty tr s) {body : Json} :
    body ∈ takenBodies s ↔ ∃ (i : Nat) (sender : Sender Capture Attempt Delivery),
      s.senders[i]? = some sender ∧ body = client.eventBody sender.parcel ∧ s.takenOf i ≠ [] := by
  constructor
  · intro hbody
    obtain ⟨c, hc, rfl⟩ := List.mem_map.mp hbody
    obtain ⟨hmem, hfate⟩ := List.mem_filter.mp hc
    obtain ⟨sender, hi, hrequest⟩ := he.owned c hmem
    refine ⟨c.sender, sender, hi, by rw [hrequest]; rfl, ?_⟩
    have hof : c ∈ s.takenOf c.sender :=
      List.mem_filter.mpr ⟨List.mem_filter.mpr ⟨hmem, decide_eq_true rfl⟩, hfate⟩
    exact List.ne_nil_of_mem hof
  · rintro ⟨i, sender, hi, rfl, hsome⟩
    obtain ⟨c, hc⟩ := List.exists_mem_of_ne_nil _ hsome
    obtain ⟨hcopy, hfate⟩ := List.mem_filter.mp hc
    refine List.mem_map.mpr ⟨c, ?_, ?_⟩
    · exact List.mem_filter.mpr ⟨(List.mem_filter.mp hcopy).1, hfate⟩
    · rw [(delivered he hi).own c hcopy]
      rfl

/-- In every run of a client's captures, with answers lost and copies late, and in whatever order the
copies come to be taken in: PostHog records each captured event at most once, as it was stamped when it
was captured, and one whose delivery was accepted exactly once; each is posted three times at most, with
doubling waits between, and is dropped only upon an answer that no other send can change or after three
failures. -/
theorem captures_recorded_once (h₀ : (capturing client).init s₀)
    (h : (capturing client).Run s₀ tr s) {recorded : List Json → List Json}
    (hrecords : Deduplicates recorded) {arrivals : List Json}
    (harrivals : arrivals.Perm (takenBodies s)) :
    (∀ i sender, s.senders[i]? = some sender → Delivered client tr s i sender) ∧
    (recorded arrivals).Pairwise (fun a b => a.get "uuid" ≠ b.get "uuid") ∧
    ∀ body, body ∈ recorded arrivals ↔ ∃ (i : Nat) (sender : Sender Capture Attempt Delivery),
      s.senders[i]? = some sender ∧ body = client.eventBody sender.parcel ∧ s.takenOf i ≠ [] := by
  have he : Explained client.send postHogHonesty tr s := run_explained h₀ h.of_restrict
  have hdistinct := run_distinct h₀ h
  refine ⟨fun i sender hi => delivered he hi, hrecords.distinct arrivals, ?_⟩
  intro body
  rw [← mem_takenBodies he, ← harrivals.mem_iff]
  constructor
  · exact hrecords.sound arrivals body
  · intro hbody
    obtain ⟨kept, hkept, huuid⟩ := hrecords.complete arrivals body hbody
    -- what is recorded under its uuid is the body itself
    have hin := hrecords.sound arrivals kept hkept
    obtain ⟨i, first, hi, rfl, -⟩ := (mem_takenBodies he).mp (harrivals.mem_iff.mp hin)
    obtain ⟨j, second, hj, rfl, -⟩ := (mem_takenBodies he).mp (harrivals.mem_iff.mp hbody)
    have hsame : first.parcel.1.uuid = second.parcel.1.uuid := by
      rw [eventBody_uuid, eventBody_uuid] at huuid
      simpa using huuid
    have hparcel : first.parcel = second.parcel := by
      have hinj := List.inj_on_of_nodup_map hdistinct
      refine hinj ?_ ?_ hsame
      · exact List.mem_map.mpr ⟨first, List.mem_of_getElem? hi, rfl⟩
      · exact List.mem_map.mpr ⟨second, List.mem_of_getElem? hj, rfl⟩
    rw [hparcel] at hkept
    exact hkept

/-- The first body of each uuid. -/
def firstOfEach : List Json → List Json
  | [] => []
  | body :: rest =>
    body :: (firstOfEach rest).filter fun other => other.get "uuid" ≠ body.get "uuid"

theorem deduplicates_firstOfEach : Deduplicates firstOfEach := by
  refine ⟨?_, ?_, ?_⟩
  · intro bodies body h
    induction bodies with
    | nil => exact h
    | cons first rest ih =>
      rcases List.mem_cons.mp h with rfl | h
      · exact List.mem_cons_self
      · exact List.mem_cons_of_mem _ (ih (List.mem_of_mem_filter h))
  · intro bodies body h
    induction bodies with
    | nil => cases h
    | cons first rest ih =>
      rcases List.mem_cons.mp h with rfl | h
      · exact ⟨body, List.mem_cons_self, rfl⟩
      · obtain ⟨kept, hkept, huuid⟩ := ih h
        by_cases hfirst : kept.get "uuid" = first.get "uuid"
        · exact ⟨first, List.mem_cons_self, hfirst.symm.trans huuid⟩
        · refine ⟨kept, List.mem_cons_of_mem _ ?_, huuid⟩
          exact List.mem_filter.mpr ⟨hkept, decide_eq_true hfirst⟩
  · intro bodies
    induction bodies with
    | nil => exact .nil
    | cons first rest ih =>
      refine List.pairwise_cons.mpr ⟨?_, ih.filter _⟩
      intro other hother
      exact Ne.symm (of_decide_eq_true (List.mem_filter.mp hother).2)

def usCloud : PostHogClient := .new "phc_key"

def login : Capture := (⟨"2026-01-01T00:00:00.000Z", "0190"⟩, ⟨"u_1", "user.login", .null⟩)

/-- An event that is taken in twice, the first time without an answer. -/
theorem taken_twice : ∃ tr s, (capturing usCloud).Run ⟨[], []⟩ tr s ∧
    takenBodies s = [usCloud.eventBody login, usCloud.eventBody login] := by
  have hcaptured : (capturing usCloud).Run ⟨[], []⟩ _ _ :=
    .next (.start _) (a := .send login) ⟨(by intro _ _ _ h; cases h), ⟨rfl, by intro _ _ h; cases h⟩⟩
  have hlost : (capturing usCloud).Run ⟨[], []⟩ _ _ :=
    .next hcaptured (a := .answer 0 (.failed "timed out"))
      ⟨(by intro _ h; cases h), ⟨rfl, by intro _ _ h; cases h; intro _ _; trivial⟩⟩
  have hlate : (capturing usCloud).Run ⟨[], []⟩ _ _ :=
    .next hlost (a := .arrive 0 true) ⟨(by intro _ h; cases h), ⟨rfl, by intro _ _ h; cases h⟩⟩
  have hresent : (capturing usCloud).Run ⟨[], []⟩ _ _ :=
    .next hlate (a := .wake 0) ⟨(by intro _ h; cases h), ⟨rfl, by intro _ _ h; cases h⟩⟩
  have htaken : (capturing usCloud).Run ⟨[], []⟩ _ _ :=
    .next hresent (a := .arrive 1 true) ⟨(by intro _ h; cases h), ⟨rfl, by intro _ _ h; cases h⟩⟩
  exact ⟨_, _, htaken, rfl⟩

theorem captures_recorded_once_late : ∃ s : Postbox,
    (takenBodies s).length = 2 ∧
      (firstOfEach (takenBodies s)).Pairwise fun a b => a.get "uuid" ≠ b.get "uuid" := by
  obtain ⟨tr, s, hr, htwice⟩ := taken_twice
  refine ⟨s, by rw [htwice]; rfl, ?_⟩
  exact (captures_recorded_once rfl hr deduplicates_firstOfEach (.refl _)).2.1

end Capturing

end Tronc.Notifications
