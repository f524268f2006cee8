import Tronc.Library.Hex
import Tronc.Library.Text
import Tronc.Notify.Render

namespace Tronc.Notifications

open Text

/-- How a Slack request fails verification. -/
inductive SignatureError where
  | missingHeader (header : String)
  | timestampExpired (age : Nat)
  | invalidSignature
  | notConfigured
  deriving DecidableEq, Repr

def MAX_TIMESTAMP_AGE_SECS : Nat := 300

/-- HMAC-SHA256: the tag of a message under a key. -/
abbrev Hmac := List UInt8 → List UInt8 → List UInt8

/-- The time as a `u64`, and 0 before the epoch. -/
def unixSecs (now : Int64) : Nat := if 0 ≤ now.toInt then now.toInt.toNat else 0

/-- The v0 signature of a message. -/
def v0Signature (sign : Hmac) (signingSecret : String) (message : List UInt8) : String :=
  "v0=" ++ Hex.encode (sign (utf8 signingSecret) message)

/-- `SlackClient::verify_signature`, by a client with this signing secret, at this time. -/
def verifySignature (sign : Hmac) (signingSecret : Option String) (now : Int64)
    (timestamp signature : String) (body : List UInt8) : Except SignatureError Unit :=
  match signingSecret with
  | none => .error .notConfigured
  | some signingSecret =>
    match Notify.parseU64 timestamp with
    | none => .error (.missingHeader "x-slack-request-timestamp")
    | some ts =>
      let age := unixSecs now - ts
      if age > MAX_TIMESTAMP_AGE_SECS then .error (.timestampExpired age)
      else
        let bodyStr := (fromUtf8 body).getD ""
        let basestring := "v0:" ++ timestamp ++ ":" ++ bodyStr
        let expected := v0Signature sign signingSecret (utf8 basestring)
        if utf8 signature = utf8 expected then .ok () else .error .invalidSignature

/-- A signature made of exactly this body, at a time no more than 300 seconds from now. -/
structure Signed (sign : Hmac) (signingSecret : String) (now : Int64) (timestamp signature : String)
    (body : List UInt8) : Prop where
  fresh : ∃ ts : Nat, Notify.parseU64 timestamp = some ts ∧ (now.toInt - ts).natAbs ≤ 300
  signature_eq : signature =
    v0Signature sign signingSecret (utf8 ("v0:" ++ timestamp ++ ":") ++ body)

/-- Unless it is too old to be accepted, a timestamp is not in the future by more than the 300
seconds either, and the body is a text. -/
def InTimeAndText (now : Int64) (timestamp : String) (body : List UInt8) : Prop :=
  ∀ ts : Nat, Notify.parseU64 timestamp = some ts → now.toInt - ts ≤ 300 →
    ts - now.toInt ≤ 300 ∧ (fromUtf8 body).isSome = true

section Verification

variable {sign : Hmac} {signingSecret : Option String} {secret : String} {now : Int64}
  {timestamp signature : String} {body body' : List UInt8} {ts : Nat}

theorem age_le_iff : ¬ unixSecs now - ts > MAX_TIMESTAMP_AGE_SECS ↔ now.toInt - ts ≤ 300 := by
  unfold unixSecs MAX_TIMESTAMP_AGE_SECS
  split <;> omega

theorem v0Signature_injective (hsign : ∀ key, Function.Injective (sign key)) :
    Function.Injective (v0Signature sign secret) := by
  intro message message' h
  have htexts := congrArg String.toList h
  rw [v0Signature, v0Signature, String.toList_append, String.toList_append] at htexts
  have hhex := String.toList_injective (List.append_cancel_left htexts)
  exact hsign _ (Hex.encode_injective hhex)

/-- What is checked of an accepted request. -/
theorem verifySignature_eq_ok :
    verifySignature sign signingSecret now timestamp signature body = .ok () ↔
      ∃ secret ts, signingSecret = some secret ∧ Notify.parseU64 timestamp = some ts ∧
        now.toInt - ts ≤ 300 ∧
        signature = v0Signature sign secret
          (utf8 ("v0:" ++ timestamp ++ ":" ++ (fromUtf8 body).getD "")) := by
  unfold verifySignature
  cases signingSecret with
  | none => simp
  | some secret =>
    cases hts : Notify.parseU64 timestamp with
    | none => simp
    | some ts =>
      dsimp only
      by_cases hage : unixSecs now - ts > MAX_TIMESTAMP_AGE_SECS
      · rw [if_pos hage]
        refine iff_of_false (fun h => nomatch h) ?_
        rintro ⟨_, ts', -, h, hold, -⟩
        obtain rfl := Option.some.inj h
        exact absurd hage (age_le_iff.mpr hold)
      · rw [if_neg hage]
        have hold := age_le_iff.mp hage
        by_cases hsig : signature = v0Signature sign secret
            (utf8 ("v0:" ++ timestamp ++ ":" ++ (fromUtf8 body).getD ""))
        · rw [if_pos (congrArg utf8 hsig)]
          exact iff_of_true rfl ⟨secret, ts, rfl, rfl, hold, hsig⟩
        · rw [if_neg fun h => hsig (utf8_injective h)]
          refine iff_of_false (fun h => nomatch h) ?_
          rintro ⟨secret', _, h, -, -, hsig'⟩
          obtain rfl := Option.some.inj h
          exact hsig hsig'

theorem signed_of_accepted (hbody : InTimeAndText now timestamp body)
    (h : verifySignature sign signingSecret now timestamp signature body = .ok ()) :
    ∃ secret, signingSecret = some secret ∧ Signed sign secret now timestamp signature body := by
  obtain ⟨secret, ts, hsecret, hts, hold, hsig⟩ := verifySignature_eq_ok.mp h
  obtain ⟨hahead, htext⟩ := hbody ts hts hold
  obtain ⟨text, htext⟩ := Option.isSome_iff_exists.mp htext
  refine ⟨secret, hsecret, ⟨ts, hts, by omega⟩, ?_⟩
  rw [hsig, htext, Option.getD_some, utf8_append, utf8_of_fromUtf8 htext]

/-- Every request has a signature that is accepted: of the body, or of no body in its place. -/
theorem inTimeAndText_of_signed (hsign : ∀ key, Function.Injective (sign key))
    (h : ∀ signature, verifySignature sign (some secret) now timestamp signature body = .ok () →
      Signed sign secret now timestamp signature body) : InTimeAndText now timestamp body := by
  intro ts hts hold
  have haccepted : verifySignature sign (some secret) now timestamp (v0Signature sign secret
      (utf8 ("v0:" ++ timestamp ++ ":" ++ (fromUtf8 body).getD ""))) body = .ok () :=
    verifySignature_eq_ok.mpr ⟨secret, ts, rfl, hts, hold, rfl⟩
  obtain ⟨⟨ts', hts', hfresh⟩, hsig⟩ := h _ haccepted
  obtain rfl : ts = ts' := Option.some.inj (hts.symm.trans hts')
  refine ⟨by omega, ?_⟩
  have hmessage := v0Signature_injective hsign hsig
  rw [utf8_append, List.append_cancel_left_eq] at hmessage
  by_contra htext
  have hnone : fromUtf8 body = none := by simpa using htext
  rw [hnone] at hmessage
  rw [← hmessage] at hnone
  have hempty := fromUtf8_utf8 ""
  cases hnone.symm.trans hempty

/-- Two bodies are each bound to an accepted signature, and are one if they share it, exactly when
neither is accepted as no text or with a time that is still to come. -/
theorem signature_binds_iff (hsign : ∀ key, Function.Injective (sign key)) :
    (∀ signingSecret signature,
      (verifySignature sign signingSecret now timestamp signature body = .ok () →
        ∃ secret, signingSecret = some secret ∧ Signed sign secret now timestamp signature body) ∧
      (verifySignature sign signingSecret now timestamp signature body' = .ok () →
        ∃ secret, signingSecret = some secret ∧ Signed sign secret now timestamp signature body') ∧
      (verifySignature sign signingSecret now timestamp signature body = .ok () →
        verifySignature sign signingSecret now timestamp signature body' = .ok () →
        body = body')) ↔
      InTimeAndText now timestamp body ∧ InTimeAndText now timestamp body' := by
  constructor
  · intro h
    constructor
    · apply @inTimeAndText_of_signed sign "" _ _ _ hsign
      intro signature haccepted
      obtain ⟨secret, hsecret, hsigned⟩ := (h (some "") signature).1 haccepted
      exact Option.some.inj hsecret ▸ hsigned
    · apply @inTimeAndText_of_signed sign "" _ _ _ hsign
      intro signature haccepted
      obtain ⟨secret, hsecret, hsigned⟩ := (h (some "") signature).2.1 haccepted
      exact Option.some.inj hsecret ▸ hsigned
  · rintro ⟨hbody, hbody'⟩ signingSecret signature
    refine ⟨signed_of_accepted hbody, signed_of_accepted hbody', fun h h' => ?_⟩
    obtain ⟨secret, hsecret, hsigned⟩ := signed_of_accepted hbody h
    obtain ⟨secret', hsecret', hsigned'⟩ := signed_of_accepted hbody' h'
    obtain rfl : secret = secret' := Option.some.inj (hsecret.symm.trans hsecret')
    have hmessages := v0Signature_injective hsign
      (hsigned.signature_eq.symm.trans hsigned'.signature_eq)
    exact List.append_cancel_left hmessages

end Verification

def slackSecret : String := "8f742231b10e8888abcd99yyyzzz85a5"

/-- The tags of `v0:1531420618:` and of `v0:1531420618:{}` under the secret. -/
def emptyTag : List UInt8 :=
  [85, 244, 30, 199, 50, 49, 1, 2, 137, 181, 78, 102, 145, 73, 234, 2, 31, 204, 171, 17, 181, 82,
    67, 85, 82, 53, 51, 206, 147, 12, 183, 57]

def objectTag : List UInt8 :=
  [143, 160, 224, 9, 209, 172, 36, 253, 61, 241, 112, 107, 70, 198, 217, 114, 171, 213, 247, 11,
    118, 33, 55, 195, 187, 91, 66, 8, 200, 76, 150, 7]

/-- An injective function with the tags of these two messages. -/
def taggedHmac (key message : List UInt8) : List UInt8 :=
  if message = utf8 "v0:1531420618:" then emptyTag
  else if message = utf8 "v0:1531420618:\x7b\x7d" then objectTag
  else List.replicate 32 0 ++ key ++ 0 :: message

theorem taggedHmac_injective (key : List UInt8) : Function.Injective (taggedHmac key) := by
  have hlong (message : List UInt8) :
      32 < (List.replicate 32 0 ++ key ++ 0 :: message : List UInt8).length := by
    simp
  intro message message' h
  unfold taggedHmac at h
  split at h
  · rename_i hm
    split at h
    · rename_i hm'
      rw [hm, hm']
    · split at h
      · exact absurd h (by decide)
      · exact absurd (congrArg List.length h) (hlong message').ne
  · split at h
    · rename_i hm
      split at h
      · exact absurd h (by decide)
      · split at h
        · rename_i hm'
          rw [hm, hm']
        · exact absurd (congrArg List.length h) (hlong message').ne
    · split at h
      · exact absurd (congrArg List.length h) (hlong message).ne'
      · split at h
        · exact absurd (congrArg List.length h) (hlong message).ne'
        · exact (List.cons.inj (List.append_cancel_left h)).2

theorem signature_binds_object :
    verifySignature taggedHmac (some slackSecret) 1531420620 "1531420618"
        "v0=8fa0e009d1ac24fd3df1706b46c6d972abd5f70b762137c3bb5b4208c84c9607"
        (utf8 "\x7b\x7d") = .ok () ∧
      Signed taggedHmac slackSecret 1531420620 "1531420618"
        "v0=8fa0e009d1ac24fd3df1706b46c6d972abd5f70b762137c3bb5b4208c84c9607"
        (utf8 "\x7b\x7d") := by
  have haccepted : verifySignature taggedHmac (some slackSecret) 1531420620 "1531420618"
      "v0=8fa0e009d1ac24fd3df1706b46c6d972abd5f70b762137c3bb5b4208c84c9607"
      (utf8 "\x7b\x7d") = .ok () := by decide
  have hbody : InTimeAndText 1531420620 "1531420618" (utf8 "\x7b\x7d") := by
    have hread : Notify.parseU64 "1531420618" = some 1531420618 := by decide
    intro ts hts _
    obtain rfl := Option.some.inj (hread.symm.trans hts)
    exact ⟨by decide, by decide⟩
  obtain ⟨secret, hsecret, hsigned⟩ :=
    ((signature_binds_iff taggedHmac_injective).mpr ⟨hbody, hbody⟩ _ _).1 haccepted
  exact ⟨haccepted, Option.some.inj hsecret ▸ hsigned⟩

/-- Two bodies that are no text pass with one signature, and a time 10,000 seconds ahead passes. -/
theorem signature_binds_neither : (∀ key, Function.Injective (taggedHmac key)) ∧
    (verifySignature taggedHmac (some slackSecret) 1531420620 "1531420618"
        "v0=55f41ec73231010289b54e669149ea021fccab11b5524355523533ce930cb739" [0xff] = .ok () ∧
      verifySignature taggedHmac (some slackSecret) 1531420620 "1531420618"
        "v0=55f41ec73231010289b54e669149ea021fccab11b5524355523533ce930cb739" [0xfe] = .ok ()) ∧
    verifySignature taggedHmac (some slackSecret) 1531410618 "1531420618"
        "v0=8fa0e009d1ac24fd3df1706b46c6d972abd5f70b762137c3bb5b4208c84c9607"
        (utf8 "\x7b\x7d") = .ok () ∧
      ¬ Signed taggedHmac slackSecret 1531410618 "1531420618"
        "v0=8fa0e009d1ac24fd3df1706b46c6d972abd5f70b762137c3bb5b4208c84c9607"
        (utf8 "\x7b\x7d") := by
  refine ⟨taggedHmac_injective, ⟨by decide, by decide⟩, by decide, fun h => ?_⟩
  have hread : Notify.parseU64 "1531420618" = some 1531420618 := by decide
  obtain ⟨ts, hts, hfresh⟩ := h.fresh
  obtain rfl := Option.some.inj (hread.symm.trans hts)
  exact absurd hfresh (by decide)

end Tronc.Notifications
