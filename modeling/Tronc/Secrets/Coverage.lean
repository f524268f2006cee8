import Tronc.Library.Spans
import Tronc.Secrets.Tokens

namespace Tronc.Secrets

open Splice

/-- The credential run that follows a `Bearer ` at `p`, up to `q`. -/
def BearerAt (text : List Char) (p q : Nat) : Prop :=
  ∃ front run rest, text = front ++ (BEARER.toList ++ (run ++ rest)) ∧ p = front.length ∧
    q = p + BEARER.length + run.length ∧ run ≠ [] ∧ (∀ c ∈ run, isCredential c = true) ∧
    ∀ c ∈ rest.head?, isCredential c = false

/-- A JWT from `a` to `e` whose first character no base64url character precedes. -/
def JwtAt (text : List Char) (a e : Nat) : Prop :=
  ∃ front header payload signature rest,
    text = front ++ (header ++ '.' :: (payload ++ '.' :: (signature ++ rest))) ∧
    a = front.length ∧ e = a + (header.length + 1 + payload.length + 1 + signature.length) ∧
    (∀ c ∈ front.getLast?, isBase64url c = false) ∧
    JWT_HEAD.toList <+: header ∧ 10 ≤ header.length ∧ payload ≠ [] ∧ signature ≠ [] ∧
    (∀ c ∈ header, isBase64url c = true) ∧ (∀ c ∈ payload, isBase64url c = true) ∧
    (∀ c ∈ signature, isBase64url c = true) ∧ ∀ c ∈ rest.head?, isBase64url c = false

/-- A `://user:password@` at `u`, its colon at `m` and its `@` at `e`. -/
def UserinfoAt (text : List Char) (u m e : Nat) : Prop :=
  ∃ front user password rest,
    text = front ++ (SCHEME_END.toList ++ (user ++ ':' :: (password ++ '@' :: rest))) ∧
    u = front.length ∧ m = u + SCHEME_END.length + user.length ∧ e = m + 1 + password.length ∧
    password ≠ [] ∧ (∀ c ∈ user, isUser c = true) ∧ ∀ c ∈ password, isPassword c = true

/-- A place within one of the shapes that are to be masked. -/
inductive Secret (text : List Char) (j : Nat) : Prop where
  | bearer {p q : Nat} : BearerAt text p q → p + BEARER.length ≤ j → j < q → Secret text j
  | jwt {a e : Nat} : JwtAt text a e → a ≤ j → j < e → Secret text j
  | password {u m e : Nat} : UserinfoAt text u m e → m < j → j < e → Secret text j

/-- The text has such a character at the place. -/
def Is (accept : Char → Bool) (text : List Char) (j : Nat) : Prop :=
  ∃ c, text[j]? = some c ∧ accept c = true

section Places

variable {text : List Char} {p q a e u m j : Nat} {c : Char}

theorem Is.char {accept : Char → Bool} (h : Is accept text j) (hc : text[j]? = some c) :
    accept c = true := by
  obtain ⟨d, hd, haccept⟩ := h
  rw [hc] at hd
  rw [Option.some.inj hd]
  exact haccept

theorem Is.imp {accept accept' : Char → Bool} (h : Is accept text j)
    (himp : ∀ c, accept c = true → accept' c = true) : Is accept' text j := by
  obtain ⟨c, hc, haccept⟩ := h
  exact ⟨c, hc, himp c haccept⟩

/-- The places of a part of the text. -/
theorem is_part {accept : Char → Bool} {front part rest : List Char}
    (h : ∀ c ∈ part, accept c = true) (hlow : front.length ≤ j)
    (hhigh : j < front.length + part.length) : Is accept (front ++ (part ++ rest)) j := by
  obtain ⟨k, rfl⟩ := Nat.exists_eq_add_of_le hlow
  have hk : k < part.length := by omega
  refine ⟨part[k], ?_, h _ (List.getElem_mem hk)⟩
  rw [List.getElem?_append_right (by omega), Nat.add_sub_cancel_left,
    List.getElem?_append_left hk, List.getElem?_eq_getElem hk]

theorem getElem?_part {front part rest : List Char} {k : Nat} (hk : part[k]? = some c) :
    (front ++ (part ++ rest))[front.length + k]? = some c := by
  obtain ⟨hlt, -⟩ := List.getElem?_eq_some_iff.mp hk
  rw [List.getElem?_append_right (by omega), Nat.add_sub_cancel_left,
    List.getElem?_append_left hlt, hk]

theorem getElem?_rest {front rest : List Char} (hc : (front ++ rest)[front.length]? = some c) :
    c ∈ rest.head? := by
  rw [List.getElem?_append_right (by omega), Nat.sub_self] at hc
  rw [List.head?_eq_getElem?, hc]
  rfl

/-- The characters of `Bearer ` after the first. -/
def inWord (c : Char) : Bool := "earer ".toList.contains c

theorem BearerAt.first (h : BearerAt text p q) : text[p]? = some 'B' := by
  obtain ⟨front, run, rest, rfl, rfl, -⟩ := h
  exact getElem?_part (k := 0) rfl

theorem BearerAt.blank (h : BearerAt text p q) : text[p + 6]? = some ' ' := by
  obtain ⟨front, run, rest, rfl, rfl, -⟩ := h
  exact getElem?_part (k := 6) rfl

theorem BearerAt.word (h : BearerAt text p q) (hlow : p < j) (hhigh : j < p + 7) :
    Is inWord text j := by
  obtain ⟨front, run, rest, rfl, rfl, -⟩ := h
  have hall : ∀ c ∈ "earer ".toList, inWord c = true := by decide
  have htext : front ++ (BEARER.toList ++ (run ++ rest)) =
      (front ++ ['B']) ++ ("earer ".toList ++ (run ++ rest)) := by
    rw [List.append_assoc]
    rfl
  rw [htext]
  apply is_part hall
  · rw [List.length_append, List.length_singleton]
    omega
  · rw [List.length_append, List.length_singleton]
    show j < front.length + 1 + 6
    omega

theorem BearerAt.letters (h : BearerAt text p q) (hlow : p ≤ j) (hhigh : j < p + 6) :
    Is isBase64url text j := by
  obtain ⟨front, run, rest, rfl, rfl, -⟩ := h
  have hall : ∀ c ∈ "Bearer".toList, isBase64url c = true := by decide
  have htext : front ++ (BEARER.toList ++ (run ++ rest)) =
      front ++ ("Bearer".toList ++ (' ' :: (run ++ rest))) := rfl
  rw [htext]
  exact is_part hall hlow hhigh

theorem BearerAt.lt (h : BearerAt text p q) : p + 7 < q := by
  obtain ⟨front, run, rest, -, -, rfl, hne, -⟩ := h
  have hpos := List.length_pos_iff.mpr hne
  have hlength : BEARER.length = 7 := rfl
  omega

theorem BearerAt.run (h : BearerAt text p q) (hlow : p + 7 ≤ j) (hhigh : j < q) :
    Is isCredential text j := by
  obtain ⟨front, run, rest, rfl, rfl, rfl, -, hrun, -⟩ := h
  have hlength : (front ++ BEARER.toList).length = front.length + 7 := List.length_append
  rw [← List.append_assoc]
  apply is_part hrun
  · omega
  · rw [hlength]
    exact hhigh

theorem BearerAt.stopped (h : BearerAt text p q) (hc : text[q]? = some c) :
    isCredential c = false := by
  obtain ⟨front, run, rest, rfl, rfl, rfl, -, -, hrest⟩ := h
  have hlength : (front ++ BEARER.toList ++ run).length =
      front.length + BEARER.length + run.length := by
    rw [List.length_append, List.length_append]
    rfl
  rw [← List.append_assoc, ← List.append_assoc, ← hlength] at hc
  exact hrest c (getElem?_rest hc)

theorem UserinfoAt.bounds (h : UserinfoAt text u m e) : u + 3 ≤ m ∧ m + 1 < e := by
  obtain ⟨front, user, password, rest, -, rfl, rfl, rfl, hne, -⟩ := h
  have hpos := List.length_pos_iff.mpr hne
  have hlength : SCHEME_END.length = 3 := rfl
  omega

theorem UserinfoAt.first (h : UserinfoAt text u m e) : text[u]? = some ':' := by
  obtain ⟨front, user, password, rest, rfl, rfl, -⟩ := h
  exact getElem?_part (k := 0) rfl

theorem UserinfoAt.slashes (h : UserinfoAt text u m e) (hlow : u < j) (hhigh : j < u + 3) :
    text[j]? = some '/' := by
  obtain ⟨front, user, password, rest, rfl, rfl, -⟩ := h
  rcases (show j = front.length + 1 ∨ j = front.length + 2 by omega) with rfl | rfl
  · exact getElem?_part (k := 1) rfl
  · exact getElem?_part (k := 2) rfl

theorem UserinfoAt.user (h : UserinfoAt text u m e) (hlow : u + 3 ≤ j) (hhigh : j < m) :
    Is isUser text j := by
  obtain ⟨front, user, password, rest, rfl, rfl, rfl, -, -, huser, -⟩ := h
  have hlength : (front ++ SCHEME_END.toList).length = front.length + 3 := List.length_append
  rw [← List.append_assoc]
  apply is_part huser
  · omega
  · rw [hlength]
    exact hhigh

theorem UserinfoAt.colon (h : UserinfoAt text u m e) : text[m]? = some ':' := by
  obtain ⟨front, user, password, rest, rfl, rfl, rfl, -⟩ := h
  have hlength : (front ++ SCHEME_END.toList ++ user).length =
      front.length + SCHEME_END.length + user.length := by
    rw [List.length_append, List.length_append]
    rfl
  have hcolon : [':'][0]? = some ':' := rfl
  rw [← List.append_assoc, ← List.append_assoc, ← hlength]
  exact getElem?_part hcolon

theorem UserinfoAt.password (h : UserinfoAt text u m e) (hlow : m < j) (hhigh : j < e) :
    Is isPassword text j := by
  obtain ⟨front, user, password, rest, rfl, rfl, rfl, rfl, -, -, hpassword⟩ := h
  have htext : front ++ (SCHEME_END.toList ++ (user ++ ':' :: (password ++ '@' :: rest))) =
      (front ++ SCHEME_END.toList ++ user ++ [':']) ++ (password ++ '@' :: rest) := by
    simp only [List.append_assoc, List.cons_append, List.nil_append]
  have hlength : (front ++ SCHEME_END.toList ++ user ++ [':']).length =
      front.length + SCHEME_END.length + user.length + 1 := by
    rw [List.length_append, List.length_append, List.length_append]
    rfl
  rw [htext]
  apply is_part hpassword
  · omega
  · rw [hlength]
    exact hhigh

theorem UserinfoAt.at_sign (h : UserinfoAt text u m e) : text[e]? = some '@' := by
  obtain ⟨front, user, password, rest, rfl, rfl, rfl, rfl, -⟩ := h
  have htext : front ++ (SCHEME_END.toList ++ (user ++ ':' :: (password ++ '@' :: rest))) =
      (front ++ SCHEME_END.toList ++ user ++ [':'] ++ password) ++ (['@'] ++ rest) := by
    simp only [List.append_assoc, List.cons_append, List.nil_append]
  have hlength : (front ++ SCHEME_END.toList ++ user ++ [':'] ++ password).length =
      front.length + SCHEME_END.length + user.length + 1 + password.length := by
    rw [List.length_append, List.length_append, List.length_append, List.length_append]
    rfl
  rw [htext, ← hlength]
  exact getElem?_part (k := 0) rfl

theorem JwtAt.head (h : JwtAt text a e) :
    text[a]? = some 'e' ∧ text[a + 1]? = some 'y' := by
  obtain ⟨front, header, payload, signature, rest, rfl, rfl, -, -, ⟨more, rfl⟩, -⟩ := h
  rw [List.append_assoc JWT_HEAD.toList]
  exact ⟨getElem?_part (k := 0) rfl, getElem?_part (k := 1) rfl⟩

theorem JwtAt.before (h : JwtAt text (j + 1) e) (hc : text[j]? = some c) :
    isBase64url c = false := by
  obtain ⟨front, header, payload, signature, rest, rfl, hfront, -, hboundary, -⟩ := h
  apply hboundary
  rw [List.getElem?_append_left (by omega)] at hc
  rw [List.getLast?_eq_getElem?, ← hfront, Nat.add_sub_cancel, hc]
  rfl

/-- The two dots of a JWT, which are its only characters outside the alphabet. -/
theorem JwtAt.dots (h : JwtAt text a e) : ∃ d₁ d₂, a + 10 ≤ d₁ ∧ d₁ + 1 < d₂ ∧ d₂ + 1 < e ∧
    text[d₁]? = some '.' ∧ text[d₂]? = some '.' ∧
    (∀ j, a ≤ j → j < e → j = d₁ ∨ j = d₂ ∨ Is isBase64url text j) ∧
    ∀ c, text[e]? = some c → isBase64url c = false := by
  obtain ⟨front, header, payload, signature, rest, rfl, rfl, rfl, -, -, hlong, hpayload, hsignature,
    hheader, hpayload', hsignature', hrest⟩ := h
  have hpos := List.length_pos_iff.mpr hpayload
  have hpos' := List.length_pos_iff.mpr hsignature
  have hsecond : front ++ (header ++ '.' :: (payload ++ '.' :: (signature ++ rest))) =
      (front ++ header ++ ['.']) ++ (payload ++ '.' :: (signature ++ rest)) := by
    simp only [List.append_assoc, List.cons_append, List.nil_append]
  have hthird : front ++ (header ++ '.' :: (payload ++ '.' :: (signature ++ rest))) =
      (front ++ header ++ ['.'] ++ payload ++ ['.']) ++ (signature ++ rest) := by
    simp only [List.append_assoc, List.cons_append, List.nil_append]
  have hlen₂ : (front ++ header ++ ['.']).length = front.length + header.length + 1 := by
    simp only [List.length_append, List.length_cons, List.length_nil]
  have hlen₃ : (front ++ header ++ ['.'] ++ payload ++ ['.']).length =
      front.length + header.length + 1 + payload.length + 1 := by
    simp only [List.length_append, List.length_cons, List.length_nil]
  have hdot : ['.'][0]? = some '.' := rfl
  refine ⟨front.length + header.length, front.length + header.length + 1 + payload.length,
    by omega, by omega, by omega, ?_, ?_, ?_, ?_⟩
  · rw [← List.append_assoc, ← List.length_append]
    exact getElem?_part hdot
  · have hlen : (front ++ header ++ ['.'] ++ payload).length =
        front.length + header.length + 1 + payload.length := by
      simp only [List.length_append, List.length_cons, List.length_nil]
    rw [hsecond, ← List.append_assoc, ← hlen]
    exact getElem?_part hdot
  · intro j hlow hhigh
    by_cases hfirst : j < front.length + header.length
    · exact .inr (.inr (is_part hheader hlow hfirst))
    · by_cases hdot₁ : j = front.length + header.length
      · exact .inl hdot₁
      · by_cases hmiddle : j < front.length + header.length + 1 + payload.length
        · rw [hsecond]
          exact .inr (.inr (is_part hpayload' (by omega) (by omega)))
        · by_cases hdot₂ : j = front.length + header.length + 1 + payload.length
          · exact .inr (.inl hdot₂)
          · rw [hthird]
            exact .inr (.inr (is_part hsignature' (by omega) (by omega)))
  · intro c hc
    have hlen : (front ++ header ++ ['.'] ++ payload ++ ['.'] ++ signature).length = front.length +
        (header.length + 1 + payload.length + 1 + signature.length) := by
      simp only [List.length_append, List.length_cons, List.length_nil]
      omega
    rw [hthird, ← List.append_assoc, ← hlen] at hc
    exact hrest c (getElem?_rest hc)

theorem isJwt_of_isBase64url {c : Char} (h : isBase64url c = true) : isJwt c = true := by
  unfold isJwt
  rw [h, Bool.true_or]

theorem isCredential_of_isJwt {c : Char} (h : isJwt c = true) : isCredential c = true := by
  unfold isJwt at h
  unfold isCredential
  rw [h]
  rfl

theorem JwtAt.lt (h : JwtAt text a e) : a + 13 < e := by
  obtain ⟨d₁, d₂, h₁, h₂, h₃, -⟩ := h.dots
  omega

theorem JwtAt.run (h : JwtAt text a e) (hlow : a ≤ j) (hhigh : j < e) : Is isJwt text j := by
  obtain ⟨d₁, d₂, -, -, -, hd₁, hd₂, hall, -⟩ := h.dots
  rcases hall j hlow hhigh with rfl | rfl | hbase
  · exact ⟨'.', hd₁, by decide⟩
  · exact ⟨'.', hd₂, by decide⟩
  · exact hbase.imp fun c => isJwt_of_isBase64url

theorem JwtAt.stopped (h : JwtAt text a e) (hc : text[e]? = some c) : isBase64url c = false := by
  obtain ⟨d₁, d₂, -, -, -, -, -, -, hstopped⟩ := h.dots
  exact hstopped c hc

/-- A JWT that begins inside another has its last segment after it. -/
theorem JwtAt.sticks_out {a₁ e₁ : Nat} (h₁ : JwtAt text a₁ e₁) (h : JwtAt text a e) (hlow : a₁ < a)
    (hhigh : a < e₁) : e₁ < e := by
  by_contra hle
  obtain ⟨d₁, d₂, -, -, -, -, -, hall, -⟩ := h₁.dots
  obtain ⟨x₁, x₂, hx₁, hx₁₂, hx₂, hdot₁, hdot₂, -⟩ := h.dots
  obtain ⟨j, rfl⟩ : ∃ j, a = j + 1 := ⟨a - 1, by omega⟩
  have hdots {k : Nat} {c : Char} (hk : a₁ ≤ k ∧ k < e₁) (hc : text[k]? = some c)
      (hout : isBase64url c = false) : k = d₁ ∨ k = d₂ := by
    rcases hall k hk.1 hk.2 with heq | heq | hbase
    · exact .inl heq
    · exact .inr heq
    · rw [hbase.char hc] at hout
      cases hout
  obtain ⟨c, hc, -⟩ := h₁.run (j := j) (by omega) (by omega)
  have hbefore := hdots ⟨by omega, by omega⟩ hc (h.before hc)
  have hfirst := hdots ⟨by omega, by omega⟩ hdot₁ (by decide)
  have hsecond := hdots ⟨by omega, by omega⟩ hdot₂ (by decide)
  omega

end Places

/-! What the scan finds at a place is one of the shapes there, and each shape is found where the scan
searches from. -/
section Found

variable {text : List Char} {p q a e u m i start stop : Nat}

theorem found_front (front rest : List Char) :
    found tokenShape (front ++ rest) front.length = tokenShape front.getLast? rest := by
  unfold found before
  rw [List.take_left', List.drop_left']
  · rfl
  · rfl

theorem BearerAt.found (h : BearerAt text p q) :
    Splice.found tokenShape text p = some (7, q - p) := by
  obtain ⟨front, run, rest, rfl, rfl, rfl, hne, hrun, hrest⟩ := h
  have hdrop : (BEARER.toList ++ (run ++ rest)).drop BEARER.length = run ++ rest :=
    List.drop_left' rfl
  have hpos := List.length_pos_iff.mpr hne
  rw [found_front]
  unfold tokenShape
  rw [if_pos (List.prefix_append _ _)]
  dsimp only
  rw [hdrop, span_append_stop hrun hrest, if_pos (by omega), Nat.add_assoc front.length,
    Nat.add_sub_cancel_left]
  rfl

theorem JwtAt.found (h : JwtAt text a e) : Splice.found tokenShape text a = some (0, e - a) := by
  obtain ⟨front, header, payload, signature, rest, rfl, rfl, rfl, hboundary, hhead, hlong, hpayload,
    hsignature, hheader, hpayload', hsignature', hrest⟩ := h
  have hjwt : JWT_HEAD.toList <+: header ++ '.' :: (payload ++ '.' :: (signature ++ rest)) :=
    hhead.trans (List.prefix_append _ _)
  have hbearer : ¬ BEARER.toList <+: header ++ '.' :: (payload ++ '.' :: (signature ++ rest)) := by
    obtain ⟨more, hmore⟩ := hjwt
    rw [← hmore]
    exact fun hp => absurd (List.cons_prefix_cons.mp hp).1 (by decide)
  have hprev : (front.getLast?.all fun c => !isBase64url c) = true := by
    cases hlast : front.getLast? with
    | none => rfl
    | some c =>
      rw [Option.all_some, hboundary c hlast]
      rfl
  rw [found_front]
  unfold tokenShape
  rw [if_neg hbearer, if_pos ⟨hjwt, hprev⟩,
    jwtLen_eq hheader hlong hpayload' hpayload hsignature' hsignature hrest,
    Nat.add_sub_cancel_left]
  rfl

theorem UserinfoAt.found (h : UserinfoAt text u m e) :
    Splice.found tokenShape text u = some (m + 1 - u, e - u) := by
  obtain ⟨front, user, password, rest, rfl, rfl, rfl, rfl, hne, huser, hpassword⟩ := h
  have hbearer (more : List Char) : ¬ BEARER.toList <+: SCHEME_END.toList ++ more :=
    fun hp => absurd (List.cons_prefix_cons.mp hp).1 (by decide)
  have hjwt (more : List Char) : ¬ JWT_HEAD.toList <+: SCHEME_END.toList ++ more :=
    fun hp => absurd (List.cons_prefix_cons.mp hp).1 (by decide)
  have hdrop : (SCHEME_END.toList ++ (user ++ ':' :: (password ++ '@' :: rest))).drop
      SCHEME_END.length = user ++ ':' :: (password ++ '@' :: rest) := List.drop_left' rfl
  rw [found_front]
  unfold tokenShape
  rw [if_neg (hbearer _), if_neg (fun hp => hjwt _ hp.1), if_pos (List.prefix_append _ _)]
  dsimp only
  rw [hdrop, userinfoPassword_eq huser hpassword hne, Option.map_some, Option.some_inj]
  apply Prod.ext
  · dsimp only
    omega
  · dsimp only
    omega

theorem found_cases (h : Splice.found tokenShape text i = some (start, stop)) :
    (BearerAt text i (i + stop) ∧ start = 7) ∨ (JwtAt text i (i + stop) ∧ start = 0) ∨
      ∃ m, UserinfoAt text i m (i + stop) ∧ i + start = m + 1 := by
  obtain ⟨-, hbound⟩ := found_sound tokenShape_sound h
  have hlength : (text.take i).length = i := by
    rw [List.length_take]
    omega
  have hsplit : text = text.take i ++ text.drop i := (List.take_append_drop i text).symm
  unfold Splice.found before tokenShape at h
  split at h
  · rename_i hword
    obtain ⟨tail, htail⟩ := hword
    have hdrop : (text.drop i).drop BEARER.length = tail := by
      rw [← htail]
      exact List.drop_left' rfl
    dsimp only at h
    rw [hdrop] at h
    split at h
    · rename_i hlt
      obtain ⟨rfl, rfl⟩ := Prod.mk.inj (Option.some.inj h)
      refine .inl ⟨⟨text.take i, tail.takeWhile isCredential, tail.dropWhile isCredential, ?_,
        hlength.symm, (Nat.add_assoc _ _ _).symm, ?_, ?_, dropWhile_head isCredential tail⟩, rfl⟩
      · rw [List.takeWhile_append_dropWhile, htail]
        exact hsplit
      · intro hnil
        unfold span at hlt
        rw [hnil] at hlt
        simp at hlt
      · exact fun c hc => List.mem_takeWhile_imp hc
    · cases h
  · split at h
    · rename_i hjwt
      obtain ⟨len, hlen, hspan⟩ := Option.map_eq_some_iff.mp h
      obtain ⟨rfl, rfl⟩ := Prod.mk.inj hspan
      obtain ⟨header, payload, signature, rest, htail, hheader, hlong, hpayload, hne, hsignature,
        hne', hrest, rfl⟩ := jwtLen_parts hlen
      refine .inr (.inl ⟨⟨text.take i, header, payload, signature, rest, ?_, hlength.symm, rfl, ?_,
        ?_, hlong, hne, hne', hheader, hpayload, hsignature, hrest⟩, rfl⟩)
      · rw [← htail]
        exact hsplit
      · intro c hc
        have hprev := hjwt.2
        rw [Option.mem_def.mp hc, Option.all_some] at hprev
        simpa using hprev
      · have hhead := hjwt.1
        rw [htail] at hhead
        exact List.prefix_of_prefix_length_le hhead (List.prefix_append _ _)
          (Nat.le_trans (by decide) hlong)
    · dsimp only at h
      split at h
      · rename_i hscheme
        obtain ⟨tail, htail⟩ := hscheme
        have hdrop : (text.drop i).drop SCHEME_END.length = tail := by
          rw [← htail]
          exact List.drop_left' rfl
        rw [hdrop] at h
        obtain ⟨⟨first, last⟩, hparse, hspan⟩ := Option.map_eq_some_iff.mp h
        obtain ⟨rfl, rfl⟩ := Prod.mk.inj hspan
        have hlt := (userinfoPassword_sound hparse).1
        obtain ⟨user, password, rest, rfl, huser, hpassword, rfl, rfl⟩ :=
          userinfoPassword_parts hparse
        refine .inr (.inr ⟨i + SCHEME_END.length + user.length,
          ⟨text.take i, user, password, rest, ?_, hlength.symm, rfl, ?_, ?_, huser, hpassword⟩, ?_⟩)
        · rw [htail]
          exact hsplit
        · dsimp only
          omega
        · intro hnil
          rw [hnil] at hlt
          simp at hlt
        · dsimp only
          omega
      · cases h

end Found

/-! What the scan passes over with another shape. -/
section Passed

variable {text : List Char} {p q a e u m i j start stop : Nat}

/-- The scan searches from no place within what it has found. -/
theorem not_within (hi : Stop tokenShape text i) (hfound : found tokenShape text i = some (start, stop))
    (hj : Stop tokenShape text j) (h : i < j) : i + stop ≤ j := by
  have hle := advance_le_of_lt tokenShape_sound hi hj h
  rwa [advance_found hfound] at hle

theorem le_length {c : Char} (h : text[j]? = some c) : j ≤ text.length :=
  Nat.le_of_lt (List.getElem?_eq_some_iff.mp h).1

/-- No shape hides a password. -/
theorem UserinfoAt.searched (h : UserinfoAt text u m e) : Stop tokenShape text u := by
  have hslash : text[u + 1]? = some '/' := h.slashes (by omega) (by omega)
  rcases stop_or_passed tokenShape_sound (le_length h.first) with
    hstop | ⟨i, start, stop, -, hfound, hlow, hhigh⟩
  · exact hstop
  · exfalso
    rcases found_cases hfound with ⟨hother, -⟩ | ⟨hother, -⟩ | ⟨m', hother, -⟩
    · by_cases hword : u < i + 7
      · exact absurd ((hother.word hlow hword).char h.first) (by decide)
      · exact absurd ((hother.run (by omega) hhigh).char h.first) (by decide)
    · exact absurd ((hother.run (by omega) hhigh).char h.first) (by decide)
    · have hbounds := hother.bounds
      by_cases hscheme : u < i + 3
      · have hboth := h.first.symm.trans (hother.slashes hlow hscheme)
        exact absurd (Option.some.inj hboth) (by decide)
      · by_cases huser : u < m'
        · exact absurd ((hother.user (by omega) huser).char h.first) (by decide)
        · by_cases hend : u + 1 = i + stop
          · rw [hend, hother.at_sign] at hslash
            exact absurd (Option.some.inj hslash) (by decide)
          · exact absurd ((hother.password (by omega) (by omega)).char hslash) (by decide)

/-- A credential run or a JWT that goes over the word `Bearer` ends with it. -/
theorem BearerAt.passed (h : BearerAt text p q) : Stop tokenShape text p ∨
    ∃ i, Stop tokenShape text i ∧
      ((BearerAt text i (p + 6) ∧ i + 7 ≤ p) ∨ (JwtAt text i (p + 6) ∧ i < p)) := by
  have hends {k : Nat} (hlow : p < k) (hhigh : k ≤ p + 6)
      (hout : ∀ c, text[k]? = some c → isBase64url c = false) : k = p + 6 := by
    by_contra hne
    obtain ⟨c, hc, hbase⟩ := h.letters (j := k) (by omega) (by omega)
    rw [hout c hc] at hbase
    cases hbase
  have hbase {c : Char} (hc : isCredential c = false) : isBase64url c = false := by
    unfold isCredential at hc
    simp only [Bool.or_eq_false_iff] at hc
    exact hc.1.1.1.1.1
  rcases stop_or_passed tokenShape_sound (le_length h.first) with
    hstop | ⟨i, start, stop, hi, hfound, hlow, hhigh⟩
  · exact .inl hstop
  · refine .inr ⟨i, hi, ?_⟩
    rcases found_cases hfound with ⟨hother, -⟩ | ⟨hother, -⟩ | ⟨m', hother, -⟩
    · by_cases hword : p < i + 7
      · exact absurd ((hother.word hlow hword).char h.first) (by decide)
      · have hle : i + stop ≤ p + 6 := by
          by_contra hlt
          exact absurd ((hother.run (j := p + 6) (by omega) (by omega)).char h.blank) (by decide)
        have heq := hends hhigh hle fun c hc => hbase (hother.stopped hc)
        rw [heq] at hother
        exact .inl ⟨hother, by omega⟩
    · have hle : i + stop ≤ p + 6 := by
        by_contra hlt
        exact absurd ((hother.run (j := p + 6) (by omega) (by omega)).char h.blank) (by decide)
      have heq := hends hhigh hle fun c hc => hother.stopped hc
      rw [heq] at hother
      exact .inr ⟨hother, hlow⟩
    · exfalso
      have hbounds := hother.bounds
      have hmark {k : Nat} {c : Char} (hlow : p ≤ k) (hhigh : k ≤ p + 6) (hc : text[k]? = some c)
          (hout : isBase64url c = false) (hblank : c ≠ ' ') : False := by
        by_cases hend : k = p + 6
        · rw [hend, h.blank] at hc
          exact hblank (Option.some.inj hc).symm
        · rw [(h.letters hlow (by omega)).char hc] at hout
          cases hout
      by_cases hscheme : p < i + 3
      · exact hmark (Nat.le_refl p) (by omega) (hother.slashes hlow hscheme) (by decide) (by decide)
      · by_cases huser : p ≤ m'
        · have hle : m' ≤ p + 6 := by
            by_contra hlt
            exact absurd ((hother.user (j := p + 6) (by omega) (by omega)).char h.blank) (by decide)
          exact hmark huser hle hother.colon (by decide) (by decide)
        · have hle : i + stop ≤ p + 6 := by
            by_contra hlt
            exact absurd ((hother.password (j := p + 6) (by omega) (by omega)).char h.blank)
              (by decide)
          exact hmark (by omega) hle hother.at_sign (by decide) (by decide)

/-- A JWT that begins in a credential run lies within it. -/
theorem JwtAt.le_of_run (h : JwtAt text a e) (hother : BearerAt text p q) (hhigh : a < q) :
    e ≤ q := by
  by_contra hlt
  obtain ⟨c, hc, hjwt⟩ := h.run (j := q) (by omega) (by omega)
  have hstopped := hother.stopped hc
  rw [isCredential_of_isJwt hjwt] at hstopped
  cases hstopped

/-- A JWT that begins in a password lies within it. -/
theorem JwtAt.le_of_password {e' : Nat} (h : JwtAt text a e) (hother : UserinfoAt text u m e')
    (hhigh : a < e') : e ≤ e' := by
  by_contra hlt
  exact absurd ((h.run (j := e') (by omega) (by omega)).char hother.at_sign) (by decide)

/-- What goes over the start of a JWT. -/
theorem JwtAt.passed (h : JwtAt text a e) : Stop tokenShape text a ∨
    (∃ p q, Stop tokenShape text p ∧ BearerAt text p q ∧ p + 7 ≤ a ∧ a < q) ∨
    (∃ a₁ e₁, Stop tokenShape text a₁ ∧ JwtAt text a₁ e₁ ∧ a₁ < a ∧ a < e₁) ∨
    (∃ u m e', UserinfoAt text u m e' ∧ u + 3 ≤ a ∧ a < m) ∨
    ∃ u m e', UserinfoAt text u m e' ∧ m < a ∧ a < e' := by
  obtain ⟨hfirst, hsecond⟩ := h.head
  rcases stop_or_passed tokenShape_sound (le_length hfirst) with
    hstop | ⟨i, start, stop, hi, hfound, hlow, hhigh⟩
  · exact .inl hstop
  · right
    rcases found_cases hfound with ⟨hother, -⟩ | ⟨hother, -⟩ | ⟨m', hother, -⟩
    · by_cases hword : a < i + 7
      · exfalso
        by_cases hend : a = i + 6
        · rw [hend, hother.blank] at hfirst
          exact absurd (Option.some.inj hfirst) (by decide)
        · exact absurd ((hother.word (j := a + 1) (by omega) (by omega)).char hsecond) (by decide)
      · exact .inl ⟨i, i + stop, hi, hother, by omega, hhigh⟩
    · exact .inr (.inl ⟨i, i + stop, hi, hother, hlow, hhigh⟩)
    · by_cases hscheme : a < i + 3
      · rw [hother.slashes hlow hscheme] at hfirst
        exact absurd (Option.some.inj hfirst) (by decide)
      · rcases Nat.lt_trichotomy a m' with huser | rfl | hpassword
        · exact .inr (.inr (.inl ⟨i, m', i + stop, hother, by omega, huser⟩))
        · rw [hother.colon] at hfirst
          exact absurd (Option.some.inj hfirst) (by decide)
        · exact .inr (.inr (.inr ⟨i, m', i + stop, hother, hpassword, hhigh⟩))

/-- After the blank of a `Bearer ` nothing is passed over but with that `Bearer `. -/
theorem BearerAt.stop_or_stop (h : BearerAt text p q) (hjwt : JwtAt text (p + 7) e) :
    Stop tokenShape text p ∨ Stop tokenShape text (p + 7) := by
  have hblank := h.blank
  rcases hjwt.passed with hstop | ⟨p', q', hi, hother, hlow, hhigh⟩ |
    ⟨a₁, e₁, -, hother, hlow, hhigh⟩ | ⟨u, m, e', hother, hlow, hhigh⟩ |
    ⟨u, m, e', hother, hlow, hhigh⟩
  · exact .inr hstop
  · by_cases heq : p' = p
    · rw [heq] at hi
      exact .inl hi
    · exact absurd ((hother.run (by omega) (by omega)).char hblank) (by decide)
  · exact absurd ((hother.run (by omega) (by omega)).char hblank) (by decide)
  · by_cases heq : u + 3 = p + 7
    · have hslash := hother.slashes (j := p + 6) (by omega) (by omega)
      exact absurd (Option.some.inj (hblank.symm.trans hslash)) (by decide)
    · exact absurd ((hother.user (by omega) (by omega)).char hblank) (by decide)
  · by_cases heq : m = p + 6
    · have hcolon := hother.colon
      rw [heq] at hcolon
      exact absurd (Option.some.inj (hblank.symm.trans hcolon)) (by decide)
    · exact absurd ((hother.password (by omega) (by omega)).char hblank) (by decide)

end Passed

/-- The word `Bearer` is in another credential run or in a JWT, and a credential that is not just one
JWT follows it. -/
def Swallowed (text : List Char) : Prop :=
  ∃ p q, BearerAt text p q ∧ ¬ JwtAt text (p + 7) q ∧
    ((∃ p' q', BearerAt text p' q' ∧ p' + 7 ≤ p ∧ p < q') ∨ ∃ a e, JwtAt text a e ∧ a < p ∧ p < e)

/-- A JWT begins in the user part of a URL's userinfo. -/
def JwtInUser (text : List Char) : Prop :=
  ∃ u m e' a e, UserinfoAt text u m e' ∧ JwtAt text a e ∧ u + 3 ≤ a ∧ a < m

/-- Two JWTs overlap, the first of them in no credential run and in no password. -/
def JwtsOverlap (text : List Char) : Prop :=
  ∃ a₁ e₁ a e, JwtAt text a₁ e₁ ∧ JwtAt text a e ∧ a₁ < a ∧ a < e₁ ∧
    (∀ p q, BearerAt text p q → a₁ < p + 7 ∨ q ≤ a₁) ∧
    ∀ u m e', UserinfoAt text u m e' → a₁ ≤ m ∨ e' ≤ a₁

section Coverage

variable {text : List Char} {p q a e u m i j start stop : Nat}

theorem BearerAt.masked (h : BearerAt text p q) (hstop : Stop tokenShape text p) (hlow : p + 7 ≤ j)
    (hhigh : j < q) : Masked tokenShape text j :=
  ⟨p, 7, q - p, hstop, h.found, hlow, by omega⟩

theorem JwtAt.masked (h : JwtAt text a e) (hstop : Stop tokenShape text a) (hlow : a ≤ j)
    (hhigh : j < e) : Masked tokenShape text j :=
  ⟨a, 0, e - a, hstop, h.found, hlow, by omega⟩

theorem UserinfoAt.masked (h : UserinfoAt text u m e) (hlow : m < j) (hhigh : j < e) :
    Masked tokenShape text j := by
  have hbounds := h.bounds
  exact ⟨u, m + 1 - u, e - u, h.searched, h.found, by omega, by omega⟩

/-- What a place is masked with. -/
theorem masked_cases (h : Masked tokenShape text j) :
    (∃ p q, Stop tokenShape text p ∧ BearerAt text p q ∧ p + 7 ≤ j ∧ j < q) ∨
    (∃ a e, Stop tokenShape text a ∧ JwtAt text a e ∧ a ≤ j ∧ j < e) ∨
    ∃ u m e, UserinfoAt text u m e ∧ m < j ∧ j < e := by
  obtain ⟨i, start, stop, hi, hfound, hlow, hhigh⟩ := h
  rcases found_cases hfound with ⟨hshape, rfl⟩ | ⟨hshape, rfl⟩ | ⟨m, hshape, hm⟩
  · exact .inl ⟨i, i + stop, hi, hshape, hlow, hhigh⟩
  · exact .inr (.inl ⟨i, i + stop, hi, hshape, by omega, hhigh⟩)
  · exact .inr (.inr ⟨i, m, i + stop, hshape, by omega, hhigh⟩)

/-- Only what is secret is masked. -/
theorem secret_of_masked (h : Masked tokenShape text j) : Secret text j := by
  rcases masked_cases h with ⟨p, q, -, hshape, hlow, hhigh⟩ | ⟨a, e, -, hshape, hlow, hhigh⟩ |
    ⟨u, m, e, hshape, hlow, hhigh⟩
  · exact .bearer hshape hlow hhigh
  · exact .jwt hshape hlow hhigh
  · exact .password hshape hlow hhigh

theorem bearer_masked (hswallowed : ¬ Swallowed text) (h : BearerAt text p q) (hlow : p + 7 ≤ j)
    (hhigh : j < q) : Masked tokenShape text j := by
  rcases h.passed with hstop | ⟨i, hi, hother⟩
  · exact h.masked hstop hlow hhigh
  · have hjwt : JwtAt text (p + 7) q := by
      by_contra hnot
      apply hswallowed
      refine ⟨p, q, h, hnot, ?_⟩
      rcases hother with ⟨hother, hle⟩ | ⟨hother, hlt⟩
      · exact .inl ⟨i, p + 6, hother, hle, by omega⟩
      · exact .inr ⟨i, p + 6, hother, hlt, by omega⟩
    rcases h.stop_or_stop hjwt with hstop | hstop
    · exact h.masked hstop hlow hhigh
    · exact hjwt.masked hstop hlow hhigh

theorem jwt_masked (hswallowed : ¬ Swallowed text) (huser : ¬ JwtInUser text)
    (hoverlap : ¬ JwtsOverlap text) (h : JwtAt text a e) (hlow : a ≤ j) (hhigh : j < e) :
    Masked tokenShape text j := by
  rcases h.passed with hstop | ⟨p, q, -, hother, hfrom, hto⟩ | ⟨a₁, e₁, -, hother, hfrom, hto⟩ |
    ⟨u, m, e', hother, hfrom, hto⟩ | ⟨u, m, e', hother, hfrom, hto⟩
  · exact h.masked hstop hlow hhigh
  · have hle := h.le_of_run hother hto
    exact bearer_masked hswallowed hother (by omega) (by omega)
  · -- the outer JWT is itself in a credential run or in a password, and the inner one with it
    by_cases hrun : ∃ p q, BearerAt text p q ∧ p + 7 ≤ a₁ ∧ a₁ < q
    · obtain ⟨p, q, hbearer, hp, hq⟩ := hrun
      have hle₁ := hother.le_of_run hbearer hq
      have hle := h.le_of_run hbearer (by omega)
      exact bearer_masked hswallowed hbearer (by omega) (by omega)
    · by_cases hpassword : ∃ u m e', UserinfoAt text u m e' ∧ m < a₁ ∧ a₁ < e'
      · obtain ⟨u, m, e', huserinfo, hm, he⟩ := hpassword
        have hle₁ := hother.le_of_password huserinfo he
        have hle := h.le_of_password huserinfo (by omega)
        exact huserinfo.masked (by omega) (by omega)
      · exfalso
        apply hoverlap
        refine ⟨a₁, e₁, a, e, hother, h, hfrom, hto, ?_, ?_⟩
        · intro p q hbearer
          by_contra hin
          exact hrun ⟨p, q, hbearer, by omega, by omega⟩
        · intro u m e' huserinfo
          by_contra hin
          exact hpassword ⟨u, m, e', huserinfo, by omega, by omega⟩
  · exact absurd ⟨u, m, e', a, e, hother, h, hfrom, hto⟩ huser
  · have hle := h.le_of_password hother hto
    exact hother.masked (by omega) (by omega)

/-- What stands after a JWT that was found is copied. -/
theorem JwtAt.end_copied (h : JwtAt text a e) (hstop : Stop tokenShape text a) :
    ¬ Masked tokenShape text e := by
  have hlt := h.lt
  intro hmasked
  obtain ⟨i, start, stop, hi, hfound, hlow, hhigh⟩ := hmasked
  obtain ⟨hspan, -⟩ := found_sound tokenShape_sound hfound
  have hafter : e ≤ i := by
    rcases Nat.lt_trichotomy i a with hia | rfl | hai
    · have hle := not_within hi hfound hstop hia
      omega
    · rw [h.found] at hfound
      obtain ⟨rfl, rfl⟩ := Prod.mk.inj (Option.some.inj hfound)
      omega
    · have hle := not_within hstop h.found hi hai
      omega
  obtain rfl : i = e := by omega
  rcases found_cases hfound with ⟨-, rfl⟩ | ⟨hother, -⟩ | ⟨m, hother, hm⟩
  · omega
  · have hbase := h.stopped hother.head.1
    exact absurd hbase (by decide)
  · have hbounds := hother.bounds
    omega

theorem not_swallowed (hall : ∀ j, Secret text j → Masked tokenShape text j) :
    ¬ Swallowed text := by
  rintro ⟨p, q, h, hnot, hcovers⟩
  have hlt := h.lt
  have hsecret : Secret text p := by
    rcases hcovers with ⟨p', q', hother, hlow, hhigh⟩ | ⟨a, e, hother, hlow, hhigh⟩
    · exact .bearer hother hlow hhigh
    · exact .jwt hother (by omega) hhigh
  -- the word is masked with what it is in, so the scan does not search from it
  have hstop : ¬ Stop tokenShape text p := by
    intro hstop
    obtain ⟨i, start, stop, hi, hfound, hlow, hhigh⟩ := hall p hsecret
    rcases Nat.lt_trichotomy i p with hip | rfl | hpi
    · have hle := not_within hi hfound hstop hip
      omega
    · rw [h.found] at hfound
      obtain ⟨rfl, rfl⟩ := Prod.mk.inj (Option.some.inj hfound)
      omega
    · have hle := not_within hstop h.found hi hpi
      omega
  have hblank := h.blank
  have hfirst := hall (p + 7) (.bearer h (Nat.le_refl _) hlt)
  rcases masked_cases hfirst with ⟨p', q', hp', hother, hlow, hhigh⟩ |
    ⟨a, e, ha, hother, hlow, hhigh⟩ | ⟨u, m, e, hother, hlow, hhigh⟩
  · by_cases heq : p' = p
    · rw [heq] at hp'
      exact hstop hp'
    · exact absurd ((hother.run (by omega) (by omega)).char hblank) (by decide)
  · by_cases heq : a = p + 7
    · subst heq
      have hle := hother.le_of_run h hlt
      by_cases hend : e = q
      · rw [hend] at hother
        exact hnot hother
      · have hlength : BEARER.length = 7 := rfl
        have hrest := hall e (.bearer h (by omega) (by omega))
        exact hother.end_copied ha hrest
    · exact absurd ((hother.run (by omega) (by omega)).char hblank) (by decide)
  · by_cases heq : m = p + 6
    · have hcolon := hother.colon
      rw [heq] at hcolon
      exact absurd (Option.some.inj (hblank.symm.trans hcolon)) (by decide)
    · exact absurd ((hother.password (by omega) (by omega)).char hblank) (by decide)

theorem not_jwtInUser (hall : ∀ j, Secret text j → Masked tokenShape text j) :
    ¬ JwtInUser text := by
  rintro ⟨u, m, e', a, e, huserinfo, h, hlow, hhigh⟩
  have hbounds := huserinfo.bounds
  have hlt := h.lt
  obtain ⟨i, start, stop, hi, hfound, hfrom, hto⟩ := hall a (.jwt h (Nat.le_refl _) (by omega))
  rcases Nat.lt_trichotomy i u with hiu | rfl | hui
  · have hle := not_within hi hfound huserinfo.searched hiu
    omega
  · rw [huserinfo.found] at hfound
    obtain ⟨rfl, rfl⟩ := Prod.mk.inj (Option.some.inj hfound)
    omega
  · have hle := not_within huserinfo.searched huserinfo.found hi hui
    omega

theorem not_jwtsOverlap (hall : ∀ j, Secret text j → Masked tokenShape text j) :
    ¬ JwtsOverlap text := by
  rintro ⟨a₁, e₁, a, e, h₁, h, hlow, hhigh, hrun, hpassword⟩
  have hlt := h₁.lt
  have hfirst := hall a₁ (.jwt h₁ (Nat.le_refl _) (by omega))
  rcases masked_cases hfirst with ⟨p, q, -, hother, hfrom, hto⟩ |
    ⟨a₀, e₀, ha₀, hother, hfrom, hto⟩ | ⟨u, m, e', hother, hfrom, hto⟩
  · have hout := hrun p q hother
    omega
  · -- what is masked ends where the outer JWT goes on, or where the inner one does
    by_cases heq : a₀ = a₁
    · subst heq
      have hend : e₀ = e₁ := by
        have hfound := hother.found.symm.trans h₁.found
        obtain ⟨-, hlength⟩ := Prod.mk.inj (Option.some.inj hfound)
        omega
      subst hend
      have hsticks := h₁.sticks_out h hlow hhigh
      exact h₁.end_copied ha₀ (hall e₀ (.jwt h (by omega) hsticks))
    · have hsticks := hother.sticks_out h₁ (by omega) hto
      exact hother.end_copied ha₀ (hall e₀ (.jwt h₁ (by omega) hsticks))
  · have hout := hpassword u m e' hother
    omega

/-- Every place of a shape is masked in the texts with none of the three kinds of overlap, and only
in these. -/
theorem secrets_masked_iff : (∀ j, Secret text j → Masked tokenShape text j) ↔
    ¬ Swallowed text ∧ ¬ JwtInUser text ∧ ¬ JwtsOverlap text := by
  constructor
  · intro hall
    exact ⟨not_swallowed hall, not_jwtInUser hall, not_jwtsOverlap hall⟩
  · rintro ⟨hswallowed, huser, hoverlap⟩ j hsecret
    cases hsecret with
    | bearer h hlow hhigh => exact bearer_masked hswallowed h hlow hhigh
    | jwt h hlow hhigh => exact jwt_masked hswallowed huser hoverlap h hlow hhigh
    | password h hlow hhigh => exact h.masked hlow hhigh

end Coverage

end Tronc.Secrets
