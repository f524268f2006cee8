import Tronc.Secrets.Redact

namespace Tronc.Secrets

open Splice

/-- The scan of `mask_token_shapes` from a point on. -/
abbrev scan (prev : Option Char) (text : List Char) : List Char :=
  splice MASK.toList tokenShape prev 0 text

theorem drop_span (accept : Char → Bool) (text : List Char) :
    text.drop (span accept text) = text.dropWhile accept := by
  have hsplit := List.takeWhile_append_dropWhile (p := accept) (l := text)
  have hdrop := congrArg (List.drop (text.takeWhile accept).length) hsplit
  rw [List.drop_left] at hdrop
  exact hdrop.symm

theorem getElem?_span (accept : Char → Bool) (text : List Char) :
    text[span accept text]? = (text.dropWhile accept).head? := by
  rw [← drop_span, List.head?_drop]

theorem span_append_stop {accept : Char → Bool} {l r : List Char}
    (hfront : ∀ c ∈ l, accept c = true) (hstop : ∀ c ∈ r.head?, accept c = false) :
    span accept (l ++ r) = l.length := by
  unfold span
  rw [List.takeWhile_append_of_pos hfront, List.length_append]
  have hnone : r.takeWhile accept = [] := by
    cases r with
    | nil => rfl
    | cons c r =>
      have hc := hstop c rfl
      rw [List.takeWhile_cons_of_neg (by simp [hc])]
  rw [hnone]
  rfl

theorem dropWhile_head (accept : Char → Bool) (text : List Char) :
    ∀ c ∈ (text.dropWhile accept).head?, accept c = false := by
  intro c hc
  cases hdrop : text.dropWhile accept with
  | nil =>
    rw [hdrop] at hc
    cases hc
  | cons d rest =>
    rw [hdrop] at hc
    obtain rfl := Option.some.inj hc
    have hhead := List.head_dropWhile_not accept (by rw [hdrop]; simp) (l := text)
    simp only [hdrop, List.head_cons] at hhead
    exact hhead

/-- A character that starts no token. -/
def isQuiet (c : Char) : Bool := !(c == 'B' || c == 'e' || c == ':')

theorem tokenShape_quiet {prev : Option Char} {c : Char} {rest : List Char} (h : isQuiet c = true) :
    tokenShape prev (c :: rest) = none := by
  have hne : 'B' ≠ c ∧ 'e' ≠ c ∧ ':' ≠ c := by
    refine ⟨?_, ?_, ?_⟩
    · rintro rfl
      exact absurd h (by decide)
    · rintro rfl
      exact absurd h (by decide)
    · rintro rfl
      exact absurd h (by decide)
  have hbearer : ¬ BEARER.toList <+: c :: rest := fun hp => hne.1 (List.cons_prefix_cons.mp hp).1
  have hjwt : ¬ JWT_HEAD.toList <+: c :: rest := fun hp => hne.2.1 (List.cons_prefix_cons.mp hp).1
  have hscheme : ¬ SCHEME_END.toList <+: c :: rest :=
    fun hp => hne.2.2 (List.cons_prefix_cons.mp hp).1
  unfold tokenShape
  rw [if_neg hbearer, if_neg (fun hp => hjwt hp.1), if_neg hscheme]

/-- The scan copies what starts no token. -/
theorem scan_quiet {front : List Char} (h : ∀ c ∈ front, isQuiet c = true) (prev : Option Char)
    (rest : List Char) : scan prev (front ++ rest) = front ++ scan (front.getLast?.or prev) rest := by
  induction front generalizing prev with
  | nil => rfl
  | cons c front ih =>
    obtain ⟨hc, hfront⟩ := List.forall_mem_cons.mp h
    rw [List.cons_append, scan, splice_none (tokenShape_quiet hc), List.cons_append]
    rw [show splice MASK.toList tokenShape (some c) 0 (front ++ rest) = _ from ih hfront (some c)]
    rw [List.getLast?_cons]
    cases front.getLast? with
    | none => rfl
    | some d => rfl

theorem mask_isQuiet : ∀ c ∈ MASK.toList, isQuiet c = true := List.all_eq_true.mp (by decide)

theorem mask_isUser : ∀ c ∈ MASK.toList, isUser c = true := List.all_eq_true.mp (by decide)

theorem mask_isPassword : ∀ c ∈ MASK.toList, isPassword c = true :=
  List.all_eq_true.mp (by decide)

theorem scan_mask (prev : Option Char) (rest : List Char) :
    scan prev (MASK.toList ++ rest) = MASK.toList ++ scan (some ']') rest :=
  scan_quiet mask_isQuiet prev rest

/-- An `e` that starts no `eyJ` is copied. -/
theorem tokenShape_e {prev : Option Char} {rest : List Char} (h : rest.head? ≠ some 'y') :
    tokenShape prev ('e' :: rest) = none := by
  have hbearer : ¬ BEARER.toList <+: 'e' :: rest :=
    fun hp => absurd (List.cons_prefix_cons.mp hp).1 (by decide)
  have hjwt : ¬ JWT_HEAD.toList <+: 'e' :: rest := by
    intro hp
    have hrest : ['y', 'J'] <+: rest := (List.cons_prefix_cons.mp hp).2
    obtain ⟨tail, rfl⟩ := hrest
    exact h rfl
  have hscheme : ¬ SCHEME_END.toList <+: 'e' :: rest :=
    fun hp => absurd (List.cons_prefix_cons.mp hp).1 (by decide)
  unfold tokenShape
  rw [if_neg hbearer, if_neg (fun hp => hjwt hp.1), if_neg hscheme]

/-- `Bearer ` that no credential follows is no token. -/
theorem tokenShape_bare {prev : Option Char} {rest : List Char}
    (h : ∀ c ∈ rest.head?, isCredential c = false) :
    tokenShape prev (BEARER.toList ++ rest) = none := by
  have hspan : span isCredential rest = 0 :=
    span_append_stop (l := []) (fun c hc => absurd hc List.not_mem_nil) h
  have hdrop : (BEARER.toList ++ rest).drop BEARER.length = rest := List.drop_left' rfl
  unfold tokenShape
  rw [if_pos (List.prefix_append _ _)]
  dsimp only
  rw [hdrop, hspan, if_neg (by simp)]

theorem scan_bare {rest : List Char} (h : ∀ c ∈ rest.head?, isCredential c = false)
    (prev : Option Char) :
    scan prev (BEARER.toList ++ rest) = BEARER.toList ++ scan (some ' ') rest := by
  have hfirst : BEARER.toList ++ rest = 'B' :: 'e' :: ['a', 'r'] ++ ('e' :: ['r', ' ']) ++ rest := rfl
  have hbare := @tokenShape_bare prev rest h
  rw [hfirst] at hbare ⊢
  simp only [List.cons_append, List.nil_append] at hbare ⊢
  rw [scan, splice_none hbare, splice_none (tokenShape_e (by simp)),
    splice_none (tokenShape_quiet (by decide)), splice_none (tokenShape_quiet (by decide)),
    splice_none (tokenShape_e (by simp)), splice_none (tokenShape_quiet (by decide)),
    splice_none (tokenShape_quiet (by decide))]
  rfl

/-- A JWT is as long as its three segments and two dots. -/
theorem jwtLen_eq {header payload signature rest : List Char}
    (hheader : ∀ d ∈ header, isBase64url d = true) (hlong : 10 ≤ header.length)
    (hpayload : ∀ d ∈ payload, isBase64url d = true) (hne : payload ≠ [])
    (hsignature : ∀ d ∈ signature, isBase64url d = true) (hne' : signature ≠ [])
    (hrest : ∀ d ∈ rest.head?, isBase64url d = false) :
    jwtLen (header ++ '.' :: (payload ++ '.' :: (signature ++ rest))) =
      some (header.length + 1 + payload.length + 1 + signature.length) := by
  have hdot : ∀ tail : List Char, ∀ d ∈ ('.' :: tail).head?, isBase64url d = false := by
    intro tail d hd
    obtain rfl := Option.some.inj hd
    decide
  have h₁ := span_append_stop (r := '.' :: (payload ++ '.' :: (signature ++ rest))) hheader (hdot _)
  have hd₁ : (header ++ '.' :: (payload ++ '.' :: (signature ++ rest))).drop (header.length + 1) =
      payload ++ '.' :: (signature ++ rest) := by
    rw [List.drop_append]
    simp
  have h₂ := span_append_stop (r := '.' :: (signature ++ rest)) hpayload (hdot _)
  have hd₂ : (header ++ '.' :: (payload ++ '.' :: (signature ++ rest))).drop
      (header.length + 1 + payload.length + 1) = signature ++ rest := by
    rw [Nat.add_assoc, ← List.drop_drop, hd₁, List.drop_append]
    simp
  have hget₁ : (header ++ '.' :: (payload ++ '.' :: (signature ++ rest)))[header.length]? =
      some '.' := by
    rw [List.getElem?_append_right (Nat.le_refl _), Nat.sub_self]
    rfl
  have hget₂ : (header ++ '.' :: (payload ++ '.' :: (signature ++ rest)))[header.length + 1 +
      payload.length]? = some '.' := by
    rw [← List.getElem?_drop, hd₁, List.getElem?_append_right (Nat.le_refl _), Nat.sub_self]
    rfl
  have h₃ := span_append_stop hsignature hrest
  have hpos : payload.length ≠ 0 := fun h => hne (List.length_eq_zero_iff.mp h)
  have hpos' := List.length_pos_iff.mpr hne'
  unfold jwtLen
  dsimp only
  rw [h₁, hd₁, h₂, hd₂, hget₁, hget₂, h₃, if_neg (by simp; omega), if_neg (by simp [hpos]),
    if_pos hpos']

/-- A JWT is there by its two first segments and one character of the third. -/
theorem jwtLen_isSome {header payload x : List Char} {c : Char}
    (hheader : ∀ d ∈ header, isBase64url d = true) (hlong : 10 ≤ header.length)
    (hpayload : ∀ d ∈ payload, isBase64url d = true) (hne : payload ≠ [])
    (hc : isBase64url c = true) :
    (jwtLen (header ++ '.' :: (payload ++ '.' :: c :: x))).isSome = true := by
  have hsplit : c :: x = (c :: x.takeWhile isBase64url) ++ x.dropWhile isBase64url := by
    rw [List.cons_append, List.takeWhile_append_dropWhile]
  have hsignature : ∀ d ∈ c :: x.takeWhile isBase64url, isBase64url d = true := by
    intro d hd
    rcases List.mem_cons.mp hd with rfl | hd
    · exact hc
    · exact List.mem_takeWhile_imp hd
  rw [hsplit, jwtLen_eq hheader hlong hpayload hne hsignature (List.cons_ne_nil _ _)
    (dropWhile_head isBase64url x)]
  rfl

/-- The segments of a JWT. -/
theorem jwtLen_parts {text : List Char} {len : Nat} (h : jwtLen text = some len) :
    ∃ header payload signature rest,
      text = header ++ '.' :: (payload ++ '.' :: (signature ++ rest)) ∧
      (∀ d ∈ header, isBase64url d = true) ∧ 10 ≤ header.length ∧
      (∀ d ∈ payload, isBase64url d = true) ∧ payload ≠ [] ∧
      (∀ d ∈ signature, isBase64url d = true) ∧ signature ≠ [] ∧
      (∀ d ∈ rest.head?, isBase64url d = false) ∧
      len = header.length + 1 + payload.length + 1 + signature.length := by
  have hcons {accept : Char → Bool} {text : List Char}
      (hget : text[span accept text]? = some '.') :
      text = text.takeWhile accept ++ '.' :: text.drop (span accept text + 1) := by
    rw [getElem?_span] at hget
    cases hdrop : text.dropWhile accept with
    | nil =>
      rw [hdrop] at hget
      cases hget
    | cons d rest =>
      rw [hdrop] at hget
      obtain rfl := Option.some.inj hget
      rw [← List.drop_drop, drop_span, hdrop, List.drop_one, List.tail_cons, ← hdrop,
        List.takeWhile_append_dropWhile]
  unfold jwtLen at h
  dsimp only at h
  split at h
  · cases h
  · rename_i hheader
    rw [not_or, not_not] at hheader
    have hsplit := hcons hheader.2
    generalize hrest : text.drop (span isBase64url text + 1) = rest at h hsplit
    rw [← List.getElem?_drop, hrest] at h
    split at h
    · cases h
    · rename_i hpayload
      rw [not_or, not_not] at hpayload
      have hsplit' := hcons hpayload.2
      have hdrop : text.drop (span isBase64url text + 1 + span isBase64url rest + 1) =
          rest.drop (span isBase64url rest + 1) := by
        rw [Nat.add_assoc (span isBase64url text + 1), ← List.drop_drop, hrest]
      rw [hdrop] at h
      split at h
      · rename_i hsig
        generalize rest.drop (span isBase64url rest + 1) = tail at h hsig hsplit'
        rw [hsplit'] at hsplit
        rw [← List.takeWhile_append_dropWhile (p := isBase64url) (l := tail)] at hsplit
        refine ⟨_, _, _, _, hsplit, ?_, Nat.not_lt.mp hheader.1, ?_, ?_, ?_, ?_,
          dropWhile_head isBase64url tail, (Option.some.inj h).symm⟩
        · exact fun d hd => List.mem_takeWhile_imp hd
        · exact fun d hd => List.mem_takeWhile_imp hd
        · exact fun hnil => hpayload.1 (congrArg List.length hnil)
        · exact fun d hd => List.mem_takeWhile_imp hd
        · exact List.length_pos_iff.mp hsig
      · cases h

/-- A password is there when the user part ends in a colon, and what follows, not empty, in `@`. -/
theorem userinfoPassword_isSome {authority : List Char} :
    (userinfoPassword authority).isSome = true ↔
      ∃ rest, authority.dropWhile isUser = ':' :: rest ∧
        (∃ c ∈ rest.head?, isPassword c = true) ∧ (rest.dropWhile isPassword).head? = some '@' := by
  unfold userinfoPassword
  dsimp only
  rw [getElem?_span]
  cases hdrop : authority.dropWhile isUser with
  | nil => simp
  | cons d rest =>
    by_cases hd : d = ':'
    · subst hd
      have hrest : authority.drop (span isUser authority + 1) = rest := by
        rw [← List.drop_drop, drop_span, hdrop]
        rfl
      have hget : authority[span isUser authority + 1 + span isPassword rest]? =
          (rest.dropWhile isPassword).head? := by
        rw [← List.getElem?_drop, hrest, getElem?_span]
      have hspan : 0 < span isPassword rest ↔ ∃ c ∈ rest.head?, isPassword c = true := by
        unfold span
        cases rest with
        | nil => simp
        | cons c rest => by_cases hc : isPassword c = true <;> simp [hc]
      rw [hrest, hget, if_neg (by simp)]
      constructor
      · intro h
        split at h
        · rename_i hboth
          exact ⟨rest, rfl, hspan.mp (by omega), hboth.2⟩
        · cases h
      · rintro ⟨_, heq, hfirst, hat⟩
        obtain ⟨-, rfl⟩ := List.cons.inj heq
        have hpos := hspan.mpr hfirst
        rw [if_pos ⟨by omega, hat⟩]
        rfl
    · rw [if_pos (by simpa using hd)]
      simp [hd]

def isJwt (c : Char) : Bool := isBase64url c || c == '.'

/-- What the scan makes of a text, token by token. -/
inductive Scanned : Option Char → List Char → List Char → Prop where
  | nil (prev : Option Char) : Scanned prev [] []
  | copy {prev : Option Char} {c : Char} {x y : List Char} : tokenShape prev (c :: x) = none →
      Scanned (some c) x y → Scanned prev (c :: x) (c :: y)
  | bearer {prev p : Option Char} {credential x y : List Char} :
      (∀ c ∈ x.head?, isCredential c = false) → Scanned p x y →
      Scanned prev (BEARER.toList ++ (credential ++ x)) (BEARER.toList ++ (MASK.toList ++ y))
  | jwt {prev p : Option Char} {jwt x y : List Char} : (∀ c ∈ jwt, isJwt c = true) →
      jwt.head? = some 'e' → (∀ c ∈ x.head?, isBase64url c = false) → Scanned p x y →
      Scanned prev (jwt ++ x) (MASK.toList ++ y)
  | userinfo {prev p : Option Char} {user password x y : List Char} :
      (∀ c ∈ user, isUser c = true) → Scanned p ('@' :: x) y →
      Scanned prev (SCHEME_END.toList ++ (user ++ ':' :: (password ++ '@' :: x)))
        (SCHEME_END.toList ++ (user ++ ':' :: (MASK.toList ++ y)))

theorem userinfoPassword_parts {authority : List Char} {start stop : Nat}
    (h : userinfoPassword authority = some (start, stop)) : ∃ user password rest,
      authority = user ++ ':' :: (password ++ '@' :: rest) ∧ (∀ c ∈ user, isUser c = true) ∧
        (∀ c ∈ password, isPassword c = true) ∧ start = user.length + 1 ∧
        stop = start + password.length := by
  unfold userinfoPassword at h
  dsimp only at h
  rw [getElem?_span] at h
  split at h
  · cases h
  · rename_i hcolon
    rw [not_not] at hcolon
    split at h
    · rename_i hboth
      obtain ⟨rfl, rfl⟩ := Prod.mk.inj (Option.some.inj h)
      cases hdrop : authority.dropWhile isUser with
      | nil =>
        rw [hdrop] at hcolon
        cases hcolon
      | cons d rest =>
        rw [hdrop] at hcolon
        obtain rfl := Option.some.inj hcolon
        have hrest : authority.drop (span isUser authority + 1) = rest := by
          rw [← List.drop_drop, drop_span, hdrop]
          rfl
        have hat := hboth.2
        rw [hrest, ← List.getElem?_drop, hrest, getElem?_span] at hat
        cases hpassword : rest.dropWhile isPassword with
        | nil =>
          rw [hpassword] at hat
          cases hat
        | cons d tail =>
          rw [hpassword] at hat
          obtain rfl := Option.some.inj hat
          refine ⟨authority.takeWhile isUser, rest.takeWhile isPassword, tail, ?_, ?_, ?_, rfl, ?_⟩
          · rw [← hpassword, List.takeWhile_append_dropWhile, ← hdrop,
              List.takeWhile_append_dropWhile]
          · exact fun c hc => List.mem_takeWhile_imp hc
          · exact fun c hc => List.mem_takeWhile_imp hc
          · rw [hrest]
            rfl
    · cases h

theorem jwtLen_chars {text : List Char} {len : Nat} (h : jwtLen text = some len) :
    (∀ c ∈ text.take len, isJwt c = true) ∧ ∀ c ∈ (text.drop len).head?, isBase64url c = false := by
  obtain ⟨header, payload, signature, rest, rfl, hheader, -, hpayload, -, hsignature, -, hrest,
    hlen⟩ := jwtLen_parts h
  have hsplit : header ++ '.' :: (payload ++ '.' :: (signature ++ rest)) =
      (header ++ '.' :: (payload ++ '.' :: signature)) ++ rest := by simp
  have hlength : (header ++ '.' :: (payload ++ '.' :: signature)).length = len := by
    rw [hlen]
    simp
    omega
  have hjwt {l : List Char} (hl : ∀ d ∈ l, isBase64url d = true) : ∀ d ∈ l, isJwt d = true := by
    intro d hd
    unfold isJwt
    rw [hl d hd, Bool.true_or]
  rw [hsplit, List.take_left' hlength, List.drop_left' hlength]
  refine ⟨?_, hrest⟩
  intro c hc
  rcases List.mem_append.mp hc with hc | hc
  · exact hjwt hheader c hc
  · rcases List.mem_cons.mp hc with rfl | hc
    · rfl
    · rcases List.mem_append.mp hc with hc | hc
      · exact hjwt hpayload c hc
      · rcases List.mem_cons.mp hc with rfl | hc
        · rfl
        · exact hjwt hsignature c hc

section Userinfo

variable (user password more : List Char)

/-- What stands before a URL's password. -/
theorem take_userinfo :
    (SCHEME_END.toList ++ (user ++ ':' :: (password ++ '@' :: more))).take
      (SCHEME_END.length + (user.length + 1)) = SCHEME_END.toList ++ (user ++ [':']) := by
  rw [List.append_cons user, ← List.append_assoc]
  refine List.take_left' ?_
  simp only [List.length_append, List.length_cons, List.length_nil, String.length_toList]

/-- What stands after a URL's password. -/
theorem drop_userinfo :
    (SCHEME_END.toList ++ (user ++ ':' :: (password ++ '@' :: more))).drop
      (SCHEME_END.length + (user.length + 1 + password.length)) = '@' :: more := by
  have hfront : SCHEME_END.toList ++ (user ++ ':' :: (password ++ '@' :: more)) =
      (SCHEME_END.toList ++ (user ++ ':' :: password)) ++ '@' :: more := by simp
  rw [hfront]
  refine List.drop_left' ?_
  simp only [List.length_append, List.length_cons, String.length_toList]
  omega

end Userinfo

/-- The scan does what `Scanned` says. -/
theorem scan_scanned (prev : Option Char) (text : List Char) :
    Scanned prev text (scan prev text) := by
  induction hn : text.length using Nat.strong_induction_on generalizing prev text with
  | _ n ih =>
    cases text with
    | nil => exact .nil prev
    | cons c rest =>
      cases hshape : tokenShape prev (c :: rest) with
      | none =>
        rw [scan, splice_none hshape]
        exact .copy hshape (ih _ (by rw [← hn]; simp) _ _ rfl)
      | some found =>
        obtain ⟨start, stop⟩ := found
        obtain ⟨hlt, hle⟩ := tokenShape_sound _ _ _ _ hshape
        rw [scan, splice_found hshape (by omega)]
        generalize htext : c :: rest = text at *
        generalize lastOf prev stop text = p
        have hrest : Scanned p (text.drop stop) (scan p (text.drop stop)) := by
          refine ih _ ?_ _ _ rfl
          rw [← hn, List.length_drop]
          omega
        unfold tokenShape at hshape
        split at hshape
        · rename_i hbearer
          dsimp only at hshape
          split at hshape
          · obtain ⟨rfl, rfl⟩ := Prod.mk.inj (Option.some.inj hshape)
            obtain ⟨tail, rfl⟩ := hbearer
            have hdrop : (BEARER.toList ++ tail).drop BEARER.length = tail := List.drop_left' rfl
            have htake : (BEARER.toList ++ tail).take BEARER.length = BEARER.toList :=
              List.take_left' rfl
            rw [hdrop, ← List.drop_drop, hdrop, drop_span] at hrest ⊢
            rw [htake, List.append_assoc]
            have hscanned := @Scanned.bearer prev _ (tail.takeWhile isCredential) _ _
              (dropWhile_head isCredential tail) hrest
            rw [List.takeWhile_append_dropWhile] at hscanned
            exact hscanned
          · cases hshape
        · split at hshape
          · rename_i hjwt
            obtain ⟨len, hlen, heq⟩ := Option.map_eq_some_iff.mp hshape
            obtain ⟨rfl, rfl⟩ := Prod.mk.inj heq
            obtain ⟨hchars, htail⟩ := jwtLen_chars hlen
            have hscanned := @Scanned.jwt prev _ _ _ _ hchars ?_ htail hrest
            · rw [List.take_append_drop] at hscanned
              exact hscanned
            · obtain ⟨tail, rfl⟩ := hjwt.1
              obtain ⟨n, rfl⟩ : ∃ n, len = n + 1 := ⟨len - 1, by omega⟩
              rfl
          · split at hshape
            · rename_i hscheme
              obtain ⟨tail, rfl⟩ := hscheme
              obtain ⟨⟨s, e⟩, hpassword, heq⟩ := Option.map_eq_some_iff.mp hshape
              obtain ⟨rfl, rfl⟩ := Prod.mk.inj heq
              have hdrop : (SCHEME_END.toList ++ tail).drop SCHEME_END.length = tail :=
                List.drop_left' rfl
              rw [hdrop] at hpassword
              obtain ⟨user, password, more, rfl, huser, -, rfl, rfl⟩ :=
                userinfoPassword_parts hpassword
              dsimp only at hrest ⊢
              rw [drop_userinfo] at hrest ⊢
              rw [take_userinfo]
              have hscanned := @Scanned.userinfo prev _ _ password _ _ huser hrest
              simpa using hscanned
            · cases hshape

theorem Scanned.spliced {prev : Option Char} {x y : List Char} (h : Scanned prev x y) :
    Spliced MASK.toList x y := by
  induction h with
  | nil => exact .nil
  | copy _ _ ih => exact .keep _ ih
  | bearer _ _ ih => exact .kept _ (.mask _ ih)
  | jwt _ _ _ _ ih => exact .mask _ ih
  | @userinfo _ _ user password _ _ _ _ ih =>
    have hkept := (Spliced.mask password ih).kept (SCHEME_END.toList ++ (user ++ [':']))
    simpa using hkept

/-- The scan copies a character that starts no token. -/
theorem Scanned.quiet {prev : Option Char} {c : Char} {x y : List Char}
    (h : Scanned prev (c :: x) y) (hc : isQuiet c = true) :
    ∃ z, y = c :: z ∧ Scanned (some c) x z := by
  generalize hx : c :: x = text at h
  cases h with
  | nil => cases hx
  | copy _ hrest =>
    obtain ⟨rfl, rfl⟩ := List.cons.inj hx
    exact ⟨_, rfl, hrest⟩
  | bearer =>
    obtain rfl : c = 'B' := (List.cons.inj hx).1
    exact absurd hc (by decide)
  | @jwt _ _ jwt _ _ _ hhead =>
    cases jwt with
    | nil => cases hhead
    | cons d jwt =>
      obtain rfl := Option.some.inj hhead
      obtain rfl : c = 'e' := (List.cons.inj hx).1
      exact absurd hc (by decide)
  | userinfo =>
    obtain rfl : c = ':' := (List.cons.inj hx).1
    exact absurd hc (by decide)

theorem isUser_of_isJwt {c : Char} (h : isJwt c = true) : isUser c = true := by
  unfold isUser isAsciiWhitespace
  unfold isJwt isBase64url at h
  by_contra hbad
  have hc : c = ':' ∨ c = '@' ∨ c = '/' ∨ c = ' ' ∨ c = '\t' ∨ c = '\n' ∨ c = '\x0c' ∨
      c = '\r' := by
    simp only [Bool.not_eq_true, Bool.and_eq_false_iff, Bool.not_eq_false', Bool.or_eq_true,
      beq_iff_eq] at hbad
    tauto
  rcases hc with rfl | rfl | rfl | rfl | rfl | rfl | rfl | rfl <;> exact absurd h (by decide)

theorem isPassword_of_isUser {c : Char} (h : isUser c = true) : isPassword c = true := by
  unfold isUser at h
  unfold isPassword
  simp only [Bool.and_eq_true, Bool.not_eq_true', Bool.or_eq_false_iff] at h ⊢
  exact ⟨⟨h.1.1.2, h.1.2⟩, h.2⟩

/-- The scan keeps where the user part of an authority ends. -/
theorem Scanned.user {prev : Option Char} {x y : List Char} (h : Scanned prev x y) {t : List Char}
    (hy : y.dropWhile isUser = ':' :: t) : ∃ r, x.dropWhile isUser = ':' :: r ∧
      (t.head? = some '/' ∨ ∃ p, Scanned p r t) := by
  induction h with
  | nil => cases hy
  | @copy _ c x y _ hrest ih =>
    by_cases hc : isUser c = true
    · rw [List.dropWhile_cons_of_pos hc] at hy ⊢
      exact ih hy
    · rw [List.dropWhile_cons_of_neg hc] at hy ⊢
      obtain ⟨rfl, rfl⟩ := List.cons.inj hy
      exact ⟨x, rfl, .inr ⟨_, hrest⟩⟩
  | @bearer _ _ credential x y =>
    have hspace : (BEARER.toList ++ (MASK.toList ++ y)).dropWhile isUser =
        ' ' :: (MASK.toList ++ y) := rfl
    rw [hspace] at hy
    exact absurd (List.cons.inj hy).1 (by decide)
  | @jwt _ _ jwt x y hjwt _ _ _ ih =>
    rw [List.dropWhile_append_of_pos mask_isUser] at hy
    rw [List.dropWhile_append_of_pos fun c hc => isUser_of_isJwt (hjwt c hc)]
    exact ih hy
  | @userinfo _ _ user password x y =>
    obtain ⟨-, rfl⟩ := List.cons.inj hy
    exact ⟨_, rfl, .inl rfl⟩

/-- The scan keeps what ends a password. -/
theorem Scanned.password {prev : Option Char} {x y : List Char} (h : Scanned prev x y)
    (hy : (y.dropWhile isPassword).head? = some '@') :
    (x.dropWhile isPassword).head? = some '@' := by
  induction h with
  | nil => exact hy
  | @copy _ c x y _ _ ih =>
    by_cases hc : isPassword c = true
    · rw [List.dropWhile_cons_of_pos hc] at hy ⊢
      exact ih hy
    · rw [List.dropWhile_cons_of_neg hc] at hy ⊢
      exact hy
  | @bearer _ _ credential x y =>
    have hspace : (BEARER.toList ++ (MASK.toList ++ y)).dropWhile isPassword =
        ' ' :: (MASK.toList ++ y) := rfl
    rw [hspace] at hy
    exact absurd (Option.some.inj hy) (by decide)
  | @jwt _ _ jwt x y hjwt _ _ _ ih =>
    rw [List.dropWhile_append_of_pos mask_isPassword] at hy
    rw [List.dropWhile_append_of_pos fun c hc =>
      isPassword_of_isUser (isUser_of_isJwt (hjwt c hc))]
    exact ih hy
  | @userinfo _ _ user password x y =>
    have hslash : (SCHEME_END.toList ++ (user ++ ':' :: (MASK.toList ++ y))).dropWhile isPassword =
        '/' :: '/' :: (user ++ ':' :: (MASK.toList ++ y)) := rfl
    rw [hslash] at hy
    exact absurd (Option.some.inj hy) (by decide)

theorem Scanned.head {prev : Option Char} {x y : List Char} (h : Scanned prev x y) {c : Char}
    (hc : y.head? = some c) (hpassword : isPassword c = true) :
    ∃ d, x.head? = some d ∧ isPassword d = true := by
  cases h with
  | nil => cases hc
  | copy => exact ⟨c, hc, hpassword⟩
  | bearer => exact ⟨'B', rfl, by decide⟩
  | @jwt _ _ jwt x y _ hhead =>
    cases jwt with
    | nil => cases hhead
    | cons d jwt =>
      obtain rfl := Option.some.inj hhead
      exact ⟨'e', rfl, by decide⟩
  | userinfo => exact ⟨':', rfl, by decide⟩

/-- The scan makes no password where there was none. -/
theorem Scanned.userinfoPassword {prev : Option Char} {x y : List Char} (h : Scanned prev x y)
    (hy : (userinfoPassword y).isSome = true) : (userinfoPassword x).isSome = true := by
  obtain ⟨t, hdrop, ⟨c, hc, hpassword⟩, hat⟩ := userinfoPassword_isSome.mp hy
  obtain ⟨r, hr, hslash | ⟨p, hscanned⟩⟩ := h.user hdrop
  · rw [Option.mem_def, hslash] at hc
    obtain rfl := Option.some.inj hc
    exact absurd hpassword (by decide)
  · obtain ⟨d, hd, hfirst⟩ := hscanned.head hc hpassword
    exact userinfoPassword_isSome.mpr ⟨r, hr, ⟨d, hd, hfirst⟩, hscanned.password hat⟩

/-- A text that starts a token. -/
inductive Starts (prev : Option Char) : List Char → Prop where
  | bearer (c : Char) (rest : List Char) : isCredential c = true →
      Starts prev (BEARER.toList ++ c :: rest)
  | jwt (text : List Char) : JWT_HEAD.toList <+: text → prev.all (fun c => !isBase64url c) = true →
      (jwtLen text).isSome = true → Starts prev text
  | userinfo (authority : List Char) : (userinfoPassword authority).isSome = true →
      Starts prev (SCHEME_END.toList ++ authority)

theorem starts_of_tokenShape {prev : Option Char} {text : List Char}
    (h : (tokenShape prev text).isSome = true) : Starts prev text := by
  unfold tokenShape at h
  split at h
  · rename_i hbearer
    dsimp only at h
    split at h
    · rename_i hlt
      obtain ⟨tail, rfl⟩ := hbearer
      have hdrop : (BEARER.toList ++ tail).drop BEARER.length = tail := List.drop_left' rfl
      rw [hdrop] at hlt
      cases tail with
      | nil => exact absurd hlt (by simp [span])
      | cons c rest =>
        refine .bearer c rest ?_
        by_contra hc
        unfold span at hlt
        rw [List.takeWhile_cons_of_neg hc] at hlt
        exact absurd hlt (by simp)
    · cases h
  · split at h
    · rename_i hjwt
      rw [Option.isSome_map] at h
      exact .jwt text hjwt.1 hjwt.2 h
    · split at h
      · rename_i hscheme
        obtain ⟨authority, rfl⟩ := hscheme
        have hdrop : (SCHEME_END.toList ++ authority).drop SCHEME_END.length = authority :=
          List.drop_left' rfl
        rw [Option.isSome_map, hdrop] at h
        exact .userinfo authority h
      · cases h

theorem tokenShape_of_starts {prev : Option Char} {text : List Char} (h : Starts prev text) :
    (tokenShape prev text).isSome = true := by
  unfold tokenShape
  cases h with
  | bearer c rest hc =>
    have hdrop : (BEARER.toList ++ c :: rest).drop BEARER.length = c :: rest :=
      List.drop_left' rfl
    have hpos : 0 < span isCredential (c :: rest) := by
      unfold span
      rw [List.takeWhile_cons_of_pos hc]
      exact Nat.succ_pos _
    rw [if_pos (List.prefix_append _ _)]
    dsimp only
    rw [hdrop, if_pos (by omega)]
    rfl
  | jwt _ hhead hprev hlen =>
    have hbearer : ¬ BEARER.toList <+: text := by
      intro hbearer
      obtain ⟨tail, rfl⟩ := hhead
      exact absurd (List.cons_prefix_cons.mp hbearer).1 (by decide)
    rw [if_neg hbearer, if_pos ⟨hhead, hprev⟩, Option.isSome_map]
    exact hlen
  | userinfo authority hpassword =>
    have hbearer : ¬ BEARER.toList <+: SCHEME_END.toList ++ authority :=
      fun hbearer => absurd (List.cons_prefix_cons.mp hbearer).1 (by decide)
    have hjwt : ¬ JWT_HEAD.toList <+: SCHEME_END.toList ++ authority :=
      fun hjwt => absurd (List.cons_prefix_cons.mp hjwt).1 (by decide)
    have hdrop : (SCHEME_END.toList ++ authority).drop SCHEME_END.length = authority :=
      List.drop_left' rfl
    rw [if_neg hbearer, if_neg (fun hp => hjwt hp.1), if_pos (List.prefix_append _ _),
      Option.isSome_map, hdrop]
    exact hpassword

/-- The characters before a text are alike for the search, or the text is no JWT. -/
def Alike (prev prev' : Option Char) (text : List Char) : Prop :=
  prev' = prev ∨ ¬ JWT_HEAD.toList <+: text

/-- Where no token starts, none starts in what the scan makes of the text. -/
theorem tokenShape_kept {prev prev' : Option Char} {c : Char} {x y : List Char}
    (hnone : tokenShape prev (c :: x) = none) (h : Scanned (some c) x y)
    (halike : Alike prev prev' (c :: x)) : tokenShape prev' (c :: y) = none := by
  have hspliced : Spliced MASK.toList (c :: x) (c :: y) := .keep c h.spliced
  rw [toList_mask] at hspliced
  have hback {w : List Char} (hw : '[' ∉ w) (hp : w <+: c :: y) : w <+: c :: x :=
    hspliced.atStart hw hp
  have hnot : ¬ Starts prev (c :: x) := by
    intro hstarts
    have hsome := tokenShape_of_starts hstarts
    rw [hnone] at hsome
    cases hsome
  by_contra hsome
  have hstarts := starts_of_tokenShape (Option.isSome_iff_ne_none.mpr hsome)
  generalize htext : c :: y = text at hstarts
  cases hstarts with
  | bearer d rest hd =>
    have hfront : BEARER.toList ++ [d] <+: c :: y := by
      rw [htext]
      exact ⟨rest, by simp⟩
    have hplain : '[' ∉ BEARER.toList ++ [d] := by
      intro hmem
      rcases List.mem_append.mp hmem with hmem | hmem
      · exact absurd hmem (by decide)
      · obtain rfl := List.mem_singleton.mp hmem
        exact absurd hd (by decide)
    obtain ⟨tail, htail⟩ := hback hplain hfront
    refine hnot ?_
    rw [← htail, List.append_assoc]
    exact .bearer d tail hd
  | jwt _ hhead hprev hlen =>
    subst htext
    have hx := hback (by decide) hhead
    rcases halike with rfl | hno
    · obtain ⟨len, hlen⟩ := Option.isSome_iff_exists.mp hlen
      obtain ⟨header, payload, signature, rest, hsplit, hheader, hlong, hpayload, hne, hsignature,
        hsig, -, -⟩ := jwtLen_parts hlen
      obtain ⟨d, signature, rfl⟩ := List.exists_cons_of_ne_nil hsig
      have hplain {l : List Char} (hl : ∀ d ∈ l, isBase64url d = true) : '[' ∉ l :=
        fun hmem => absurd (hl _ hmem) (by decide)
      have hfront : header ++ '.' :: (payload ++ ['.', d]) <+: c :: y := by
        rw [hsplit]
        exact ⟨signature ++ rest, by simp⟩
      have hbracket : '[' ∉ header ++ '.' :: (payload ++ ['.', d]) := by
        intro hmem
        rcases List.mem_append.mp hmem with hmem | hmem
        · exact hplain hheader hmem
        · rcases List.mem_cons.mp hmem with hmem | hmem
          · cases hmem
          · rcases List.mem_append.mp hmem with hmem | hmem
            · exact hplain hpayload hmem
            · rcases List.mem_cons.mp hmem with hmem | hmem
              · cases hmem
              · rw [← List.mem_singleton.mp hmem] at hsignature
                exact absurd (hsignature '[' (.head _)) (by decide)
      obtain ⟨tail, htail⟩ := hback hbracket hfront
      refine hnot (.jwt _ hx hprev ?_)
      have hsome := jwtLen_isSome (x := tail) hheader hlong hpayload hne
        (hsignature d (.head _))
      rw [← htail]
      simpa using hsome
    · exact hno hx
  | userinfo authority hpassword =>
    obtain ⟨tail, htail⟩ := hback (w := SCHEME_END.toList) (by decide)
      (by rw [htext]; exact List.prefix_append _ _)
    have hsplit : c :: x = ':' :: '/' :: '/' :: tail := htail.symm
    obtain ⟨rfl, rfl⟩ := List.cons.inj hsplit
    obtain ⟨y₁, rfl, h₁⟩ := h.quiet (by decide)
    obtain ⟨y₂, rfl, h₂⟩ := h₁.quiet (by decide)
    have hkept : ':' :: '/' :: '/' :: y₂ = ':' :: '/' :: '/' :: authority := htext
    obtain rfl : y₂ = authority := by simpa using hkept
    exact hnot (.userinfo tail (h₂.userinfoPassword hpassword))

/-- What follows a masked span starts no JWT. -/
theorem alike_of_head {accept : Char → Bool} {prev prev' : Option Char} {text : List Char}
    (h : ∀ c ∈ text.head?, accept c = false) (he : accept 'e' = true) :
    Alike prev prev' text := by
  refine .inr ?_
  rintro ⟨tail, rfl⟩
  rw [h 'e' rfl] at he
  cases he

theorem userinfoPassword_eq {user password x : List Char}
    (huser : ∀ c ∈ user, isUser c = true) (hpassword : ∀ c ∈ password, isPassword c = true)
    (hne : password ≠ []) : userinfoPassword (user ++ ':' :: (password ++ '@' :: x)) =
      some (user.length + 1, user.length + 1 + password.length) := by
  have h₁ := span_append_stop (r := ':' :: (password ++ '@' :: x)) huser fun c hc => by
    obtain rfl := Option.some.inj hc
    decide
  have h₂ := span_append_stop (r := '@' :: x) hpassword fun c hc => by
    obtain rfl := Option.some.inj hc
    decide
  have hdrop : (user ++ ':' :: (password ++ '@' :: x)).drop (user.length + 1) =
      password ++ '@' :: x := by
    rw [List.drop_append]
    simp
  have hcolon : (user ++ ':' :: (password ++ '@' :: x))[user.length]? = some ':' := by
    rw [List.getElem?_append_right (Nat.le_refl _), Nat.sub_self]
    rfl
  have hat : (user ++ ':' :: (password ++ '@' :: x))[user.length + 1 + password.length]? =
      some '@' := by
    rw [← List.getElem?_drop, hdrop, List.getElem?_append_right (Nat.le_refl _), Nat.sub_self]
    rfl
  have hpos := List.length_pos_iff.mpr hne
  unfold userinfoPassword
  dsimp only
  rw [h₁, hcolon, if_neg (by simp), hdrop, h₂, hat, if_pos ⟨by omega, rfl⟩]

/-- A password that is masked is masked again. -/
theorem scan_userinfo {user x : List Char} (prev : Option Char)
    (huser : ∀ c ∈ user, isUser c = true) : ∃ p,
    scan prev (SCHEME_END.toList ++ (user ++ ':' :: (MASK.toList ++ '@' :: x))) =
      SCHEME_END.toList ++ (user ++ ':' :: (MASK.toList ++ scan p ('@' :: x))) := by
  have hpassword := userinfoPassword_eq (x := x) huser
    mask_isPassword (by decide)
  generalize hauthority : user ++ ':' :: (MASK.toList ++ '@' :: x) = authority at hpassword ⊢
  have hbearer : ¬ BEARER.toList <+: SCHEME_END.toList ++ authority :=
    fun hp => absurd (List.cons_prefix_cons.mp hp).1 (by decide)
  have hjwt : ¬ JWT_HEAD.toList <+: SCHEME_END.toList ++ authority :=
    fun hp => absurd (List.cons_prefix_cons.mp hp).1 (by decide)
  have hdrop : (SCHEME_END.toList ++ authority).drop SCHEME_END.length = authority :=
    List.drop_left' rfl
  have hshape : tokenShape prev (SCHEME_END.toList ++ authority) =
      some (SCHEME_END.length + (user.length + 1),
        SCHEME_END.length + (user.length + 1 + MASK.toList.length)) := by
    unfold tokenShape
    rw [if_neg hbearer, if_neg (fun hp => hjwt hp.1), if_pos (List.prefix_append _ _)]
    dsimp only
    rw [hdrop, hpassword]
    rfl
  have htake := hauthority ▸ take_userinfo user MASK.toList x
  have hskip := hauthority ▸ drop_userinfo user MASK.toList x
  obtain ⟨tail, hcons⟩ : ∃ tail, SCHEME_END.toList ++ authority = ':' :: tail := ⟨_, rfl⟩
  rw [hcons] at hshape htake hskip ⊢
  have hfound := @splice_found _ MASK.toList _ _ _ _ _ _ hshape (by omega)
  rw [htake, hskip] at hfound
  refine ⟨lastOf prev (SCHEME_END.length + (user.length + 1 + MASK.toList.length))
    (':' :: tail), ?_⟩
  rw [scan, hfound]
  simp only [List.append_assoc, List.cons_append, List.nil_append]

/-- A second scan finds nothing more. -/
theorem Scanned.again {prev prev' : Option Char} {x y : List Char} (h : Scanned prev x y)
    (halike : Alike prev prev' x) : scan prev' y = y := by
  induction h generalizing prev' with
  | nil => rfl
  | @copy prev c x y hnone hrest ih =>
    rw [scan, splice_none (tokenShape_kept hnone hrest halike)]
    exact congrArg (c :: ·) (ih (.inl rfl))
  | @bearer _ _ _ x y hx _ ih =>
    have hbracket : ∀ c ∈ (MASK.toList ++ y).head?, isCredential c = false := by
      intro c hc
      obtain rfl := Option.some.inj hc
      decide
    rw [scan_bare hbracket, scan_mask, ih (alike_of_head hx (by decide))]
  | jwt _ _ hx _ ih => rw [scan_mask, ih (alike_of_head hx (by decide))]
  | @userinfo prev p user password x y huser hrest ih =>
    have hat (p' : Option Char) : Alike p p' ('@' :: x) :=
      .inr fun hp => absurd (List.cons_prefix_cons.mp hp).1 (by decide)
    obtain ⟨z, rfl, -⟩ := hrest.quiet (by decide)
    obtain ⟨p', hscan⟩ := scan_userinfo (x := z) prev' huser
    rw [hscan, ih (hat p')]

theorem maskTokens_again (text : List Char) : maskTokens (maskTokens text) = maskTokens text :=
  (scan_scanned none text).again (.inl rfl)

theorem maskTokenShapes_again (text : String) :
    maskTokenShapes (maskTokenShapes text) = maskTokenShapes text := by
  by_cases hnone : (!Text.contains text BEARER && !Text.contains text JWT_HEAD &&
      !Text.contains text SCHEME_END) = true
  · have hsame : maskTokenShapes text = text := if_pos hnone
    rw [hsame, hsame]
  · have hscan : maskTokenShapes text = .ofList (maskTokens text.toList) := if_neg hnone
    rw [hscan]
    unfold maskTokenShapes
    rw [String.toList_ofList, maskTokens_again, ite_self]

/-- Whatever values are registered, and whatever the text: the registry holds the longest first, no
plain value of eight bytes or more is in what `redact` gives, and when all of them are plain, `redact`
changes it no more. -/
theorem redaction_holds (values : List String) (text : String) :
    IsRegistry (registered values) ∧
    (∀ value ∈ values, MIN_SECRET_LEN ≤ (Text.trim value).utf8ByteSize → Plain (Text.trim value) →
      Text.contains (redact (registered values) text) (Text.trim value) = false) ∧
    ((∀ value ∈ values, MIN_SECRET_LEN ≤ (Text.trim value).utf8ByteSize →
        Plain (Text.trim value)) →
      redact (registered values) (redact (registered values) text) =
        redact (registered values) text) := by
  refine ⟨registered_sorted values, ?_, ?_⟩
  · intro value hvalue hlong plain
    have hmem := mem_registered.mpr ⟨value, hvalue, rfl, hlong⟩
    rw [Bool.eq_false_iff]
    exact fun hcontains => redact_removes plain hmem text (Text.contains_iff.mp hcontains)
  · intro hplain
    have hgone : ∀ secret ∈ registered values,
        ¬ secret.toList <:+: (redact (registered values) text).toList := by
      intro secret hsecret
      obtain ⟨value, hvalue, rfl, hlong⟩ := mem_registered.mp hsecret
      exact redact_removes (hplain value hvalue hlong) hsecret text
    rw [redact_eq _ (redact _ _), replaceEach_none hgone, redact_eq, maskTokenShapes_again]

example : maskTokens "Bearer a.b~c, db://me:pw@host".toList =
    "Bearer [REDACTED], db://me:[REDACTED]@host".toList := by decide +kernel

end Tronc.Secrets
