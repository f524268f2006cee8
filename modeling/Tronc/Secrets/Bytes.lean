import Tronc.Library.Slices
import Tronc.Secrets.Coverage

namespace Tronc.Secrets

open Slices Splice

def isBase64urlByte (b : UInt8) : Bool :=
  (48 ≤ b && b ≤ 57) || (65 ≤ b && b ≤ 90) || (97 ≤ b && b ≤ 122) || b == 45 || b == 95

def isCredentialByte (b : UInt8) : Bool :=
  isBase64urlByte b || b == 46 || b == 126 || b == 43 || b == 47 || b == 61

def isAsciiWhitespaceByte (b : UInt8) : Bool := b == 32 || b == 9 || b == 10 || b == 12 || b == 13

def isUserByte (b : UInt8) : Bool := !(b == 58 || b == 64 || b == 47) && !isAsciiWhitespaceByte b

def isPasswordByte (b : UInt8) : Bool := !(b == 64 || b == 47) && !isAsciiWhitespaceByte b

def spanBytes (bytes : List UInt8) (accept : UInt8 → Bool) : Nat := (bytes.takeWhile accept).length

def jwtLenBytes (bytes : List UInt8) : Option Nat :=
  let header := spanBytes bytes isBase64urlByte
  if header < 10 ∨ bytes[header]? ≠ some 46 then none
  else
    let payloadStart := header + 1
    let payload := spanBytes (bytes.drop payloadStart) isBase64urlByte
    let signatureDot := payloadStart + payload
    if payload = 0 ∨ bytes[signatureDot]? ≠ some 46 then none
    else
      let signature := spanBytes (bytes.drop (signatureDot + 1)) isBase64urlByte
      if 0 < signature then some (signatureDot + 1 + signature) else none

def userinfoPasswordBytes (authority : List UInt8) : Option (Nat × Nat) :=
  let user := spanBytes authority isUserByte
  if authority[user]? ≠ some 58 then none
  else
    let start := user + 1
    let stop := start + spanBytes (authority.drop start) isPasswordByte
    if start < stop ∧ authority[stop]? = some 64 then some (start, stop) else none

/-- What to mask of the credential that `rest`, the text from the byte `place` on, begins with. -/
def maskedEnd (bytes : List UInt8) (rest : List Char) (place : Nat) : Option (Nat × Nat) :=
  if BEARER.toList <+: rest then
    let start := place + BEARER.utf8ByteSize
    let stop := start + spanBytes (bytes.drop start) isCredentialByte
    if start < stop then some (start, stop) else none
  else if JWT_HEAD.toList <+: rest ∧
      (place = 0 ∨ (bytes[place - 1]?).all (fun b => !isBase64urlByte b)) then
    (jwtLenBytes (bytes.drop place)).map fun len => (place, place + len)
  else if SCHEME_END.toList <+: rest then
    let authority := place + SCHEME_END.utf8ByteSize
    (userinfoPasswordBytes (bytes.drop authority)).map fun s => (authority + s.1, authority + s.2)
  else none

/-- The loop: `none` when a slice falls within a character, or the fuel runs out. -/
def maskLoop (text : List Char) : Nat → Nat → Nat → List Char → Option (Nat × List Char)
  | 0, _, _, _ => none
  | fuel + 1, place, copied, out =>
    if place < (encode text).length then
      (after place text).bind fun rest =>
        match maskedEnd (encode text) rest place with
        | some (start, stop) =>
          (slice copied start text).bind fun piece =>
            maskLoop text fuel stop stop (out ++ piece ++ MASK.toList)
        | none => maskLoop text fuel (place + rest.head?.elim 1 Char.utf8Size) copied out
    else some (copied, out)

def maskTokenShapesBytes (fuel : Nat) (text : String) : Option String :=
  if !Text.contains text BEARER && !Text.contains text JWT_HEAD &&
      !Text.contains text SCHEME_END then some text
  else
    (maskLoop text.toList fuel 0 0 []).bind fun (copied, out) =>
      if copied = 0 then some text
      else (after copied text.toList).map fun rest => .ofList (out ++ rest)

section Agreement

theorem ne_of_high {c d : Char} (hc : 128 ≤ c.toNat) (hd : d.toNat < 128) : (c == d) = false := by
  rw [beq_eq_false_iff_ne]
  rintro rfl
  omega

theorem isBase64url_high {c : Char} (hc : 128 ≤ c.toNat) : isBase64url c = false := by
  have halphanum : c.isAlphanum = false := by
    have hval : 128 ≤ c.val.toNat := hc
    have hupper : 'Z'.val.toNat = 90 := rfl
    have hlower : 'z'.val.toNat = 122 := rfl
    have hdigit : '9'.val.toNat = 57 := rfl
    by_contra h
    unfold Char.isAlphanum Char.isAlpha Char.isUpper Char.isLower Char.isDigit at h
    simp only [Bool.not_eq_false, UInt32.le_iff_toNat_le, ge_iff_le, Bool.or_eq_true,
      Bool.and_eq_true, decide_eq_true_eq] at h
    omega
  unfold isBase64url
  rw [halphanum, ne_of_high hc (by decide), ne_of_high hc (by decide)]
  rfl

theorem isAsciiWhitespace_high {c : Char} (hc : 128 ≤ c.toNat) : isAsciiWhitespace c = false := by
  unfold isAsciiWhitespace
  rw [ne_of_high hc (by decide), ne_of_high hc (by decide), ne_of_high hc (by decide),
    ne_of_high hc (by decide), ne_of_high hc (by decide)]
  rfl

theorem agrees_base64url : Agrees isBase64urlByte isBase64url := by
  apply agrees_of_ascii false
  · decide +kernel
  · decide +kernel
  · exact fun c hc => isBase64url_high hc

theorem agrees_credential : Agrees isCredentialByte isCredential := by
  apply agrees_of_ascii false
  · decide +kernel
  · decide +kernel
  · intro c hc
    unfold isCredential
    rw [isBase64url_high hc, ne_of_high hc (by decide), ne_of_high hc (by decide),
      ne_of_high hc (by decide), ne_of_high hc (by decide), ne_of_high hc (by decide)]
    rfl

/-- A character past ASCII may stand in a user name, each of its bytes as well. -/
theorem agrees_user : Agrees isUserByte isUser := by
  apply agrees_of_ascii true
  · decide +kernel
  · decide +kernel
  · intro c hc
    unfold isUser
    rw [isAsciiWhitespace_high hc, ne_of_high hc (by decide), ne_of_high hc (by decide),
      ne_of_high hc (by decide)]
    rfl

theorem agrees_password : Agrees isPasswordByte isPassword := by
  apply agrees_of_ascii true
  · decide +kernel
  · decide +kernel
  · intro c hc
    unfold isPassword
    rw [isAsciiWhitespace_high hc, ne_of_high hc (by decide), ne_of_high hc (by decide)]
    rfl

theorem spanBytes_encode {acceptByte : UInt8 → Bool} {accept : Char → Bool}
    (h : Agrees acceptByte accept) (text : List Char) :
    spanBytes (encode text) acceptByte = offset text (span accept text) :=
  length_takeWhile_encode h text

theorem offset_span_base64url (text : List Char) :
    offset text (span isBase64url text) = span isBase64url text := by
  apply offset_ascii
  · intro c hc
    have htake : text.take (span isBase64url text) = text.takeWhile isBase64url :=
      (List.prefix_iff_eq_take.mp (List.takeWhile_prefix isBase64url)).symm
    rw [htake] at hc
    have haccept := List.mem_takeWhile_imp hc
    by_contra hhigh
    rw [isBase64url_high (by omega)] at haccept
    cases haccept
  · exact span_le isBase64url text

theorem spanBytes_base64url (text : List Char) :
    spanBytes (encode text) isBase64urlByte = span isBase64url text := by
  rw [spanBytes_encode agrees_base64url, offset_span_base64url]

/-- A JWT is of ASCII, so it is as long in bytes. -/
theorem jwtLenBytes_encode (text : List Char) : jwtLenBytes (encode text) = jwtLen text := by
  have hget {n : Nat} (hn : offset text n = n) :
      (encode text)[n]? = some 46 ↔ text[n]? = some '.' := by
    have hiff : (encode text)[offset text n]? = some 46 ↔ text[n]? = some '.' :=
      getElem?_offset (d := '.') (by decide)
    rwa [hn] at hiff
  have hnext {n : Nat} (hn : offset text n = n) (hdot : text[n]? = some '.') :
      offset text (n + 1) = n + 1 := by
    rw [offset_succ (by decide) hdot, hn]
  have hdrop {n : Nat} (hn : offset text n = n) :
      (encode text).drop n = encode (text.drop n) := by
    have h := drop_offset text n
    rwa [hn] at h
  have hheader := offset_span_base64url text
  unfold jwtLenBytes jwtLen
  dsimp only
  rw [spanBytes_base64url]
  generalize span isBase64url text = header at hheader
  by_cases hdot : text[header]? = some '.'
  · have hstart := hnext hheader hdot
    have hpayload : offset text (header + 1 + span isBase64url (text.drop (header + 1))) =
        header + 1 + span isBase64url (text.drop (header + 1)) := by
      rw [offset_add, hstart, offset_span_base64url]
    rw [hdrop hstart, spanBytes_base64url]
    generalize span isBase64url (text.drop (header + 1)) = payload at hpayload
    by_cases hdot' : text[header + 1 + payload]? = some '.'
    · rw [hdrop (hnext hpayload hdot'), spanBytes_base64url, (hget hheader).mpr hdot, hdot,
        (hget hpayload).mpr hdot', hdot']
      simp
    · have hbyte : (encode text)[header + 1 + payload]? ≠ some 46 :=
        fun h => hdot' ((hget hpayload).mp h)
      rw [(hget hheader).mpr hdot, hdot]
      simp [hbyte, hdot']
  · have hbyte : (encode text)[header]? ≠ some 46 := fun h => hdot ((hget hheader).mp h)
    rw [if_pos (.inr hbyte), if_pos (.inr hdot)]

/-- The password lies between the same characters. -/
theorem userinfoPasswordBytes_encode (text : List Char) :
    userinfoPasswordBytes (encode text) =
      (userinfoPassword text).map fun s => (offset text s.1, offset text s.2) := by
  unfold userinfoPasswordBytes userinfoPassword
  dsimp only
  rw [spanBytes_encode agrees_user]
  generalize span isUser text = user
  have hcolon : (encode text)[offset text user]? = some 58 ↔ text[user]? = some ':' :=
    getElem?_offset (d := ':') (by decide)
  by_cases hget : text[user]? = some ':'
  · have hstart : offset text (user + 1) = offset text user + 1 := offset_succ (by decide) hget
    rw [hcolon.mpr hget, hget, ← hstart, drop_offset, spanBytes_encode agrees_password, ← offset_add]
    have hat : (encode text)[offset text (user + 1 + span isPassword (text.drop (user + 1)))]? =
        some 64 ↔ text[user + 1 + span isPassword (text.drop (user + 1))]? = some '@' :=
      getElem?_offset (d := '@') (by decide)
    have hpos := offset_pos (span_le isPassword (text.drop (user + 1)))
    have hlt : offset text (user + 1) < offset text
        (user + 1 + span isPassword (text.drop (user + 1))) ↔
        user + 1 < user + 1 + span isPassword (text.drop (user + 1)) := by
      rw [offset_add text (user + 1)]
      omega
    have hsome : ¬ some (58 : UInt8) ≠ some 58 := fun h => h rfl
    have hsome' : ¬ some ':' ≠ some ':' := fun h => h rfl
    rw [if_neg hsome, if_neg hsome']
    by_cases hboth : user + 1 < user + 1 + span isPassword (text.drop (user + 1)) ∧
        text[user + 1 + span isPassword (text.drop (user + 1))]? = some '@'
    · have hbytes := And.intro (hlt.mpr hboth.1) (hat.mpr hboth.2)
      rw [if_pos hbytes, if_pos hboth]
      rfl
    · have hbytes := fun h => hboth ⟨hlt.mp (And.left h), hat.mp (And.right h)⟩
      rw [if_neg hbytes, if_neg hboth]
      rfl
  · have hbyte : (encode text)[offset text user]? ≠ some 58 := fun h => hget (hcolon.mp h)
    rw [if_pos hbyte, if_pos hget]
    rfl

theorem offset_jwt {text : List Char} {len : Nat} (h : jwtLen text = some len) :
    offset text len = len := by
  apply offset_ascii
  · intro c hc
    have hjwt := (jwtLen_chars h).1 c hc
    by_contra hhigh
    unfold isJwt at hjwt
    rw [isBase64url_high (by omega), ne_of_high (by omega) (by decide)] at hjwt
    cases hjwt
  · exact (jwtLen_sound h).2

/-- The byte before a place is of the character before it. -/
theorem boundary_iff (front rest : List Char) :
    ((encode front).length = 0 ∨ ((encode (front ++ rest))[(encode front).length - 1]?).all
      (fun b => !isBase64urlByte b) = true) ↔
      (front.getLast?.all fun c => !isBase64url c) = true := by
  rcases List.eq_nil_or_concat' front with rfl | ⟨init, c, rfl⟩
  · exact iff_of_true (.inl rfl) rfl
  · have hne : String.utf8EncodeChar c ≠ [] := String.utf8EncodeChar_ne_nil
    obtain ⟨bytes, b, hbytes⟩ := (List.eq_nil_or_concat' (String.utf8EncodeChar c)).resolve_left hne
    have hagree := agrees_base64url c b (by rw [hbytes]; simp)
    have hencode : encode (init ++ [c]) = (encode init ++ bytes) ++ [b] := by
      rw [encode_append, encode_cons, hbytes]
      simp [encode]
    have hlength : (encode (init ++ [c])).length = (encode init ++ bytes).length + 1 := by
      rw [hencode, List.length_append]
      rfl
    have hlast : (encode (init ++ [c] ++ rest))[(encode init ++ bytes).length]? = some b := by
      rw [encode_append, hencode, List.append_assoc, List.getElem?_append_right (Nat.le_refl _),
        Nat.sub_self]
      rfl
    rw [hlength, Nat.add_sub_cancel, hlast, List.getLast?_concat, Option.all_some, Option.all_some,
      hagree]
    simp

/-- What the loop masks at a place is what the scan of the characters masks there. -/
theorem maskedEnd_encode (front rest : List Char) :
    maskedEnd (encode (front ++ rest)) rest (encode front).length =
      (tokenShape front.getLast? rest).map fun s =>
        ((encode front).length + offset rest s.1, (encode front).length + offset rest s.2) := by
  have hdrop (n : Nat) : (encode (front ++ rest)).drop ((encode front).length + n) =
      (encode rest).drop n := by
    rw [encode_append, ← List.drop_drop, List.drop_left]
  unfold maskedEnd tokenShape
  by_cases hbearer : BEARER.toList <+: rest
  · rw [if_pos hbearer, if_pos hbearer]
    dsimp only
    have hseven : offset rest BEARER.length = BEARER.utf8ByteSize := by
      obtain ⟨tail, rfl⟩ := hbearer
      rfl
    have hpos := offset_pos (span_le isCredential (rest.drop BEARER.length))
    rw [hdrop, ← hseven, drop_offset, spanBytes_encode agrees_credential, Nat.add_assoc,
      ← offset_add]
    have hlt : (encode front).length + offset rest BEARER.length < (encode front).length +
        offset rest (BEARER.length + span isCredential (rest.drop BEARER.length)) ↔
        BEARER.length < BEARER.length + span isCredential (rest.drop BEARER.length) := by
      rw [offset_add rest BEARER.length]
      omega
    by_cases hnone : BEARER.length < BEARER.length + span isCredential (rest.drop BEARER.length)
    · rw [if_pos hnone, if_pos (hlt.mpr hnone)]
      rfl
    · rw [if_neg hnone, if_neg fun h => hnone (hlt.mp h)]
      rfl
  · rw [if_neg hbearer, if_neg hbearer]
    have hboundary := and_congr_right' (a := JWT_HEAD.toList <+: rest) (boundary_iff front rest)
    by_cases hjwt : JWT_HEAD.toList <+: rest ∧
        (front.getLast?.all fun c => !isBase64url c) = true
    · have hzero := hdrop 0
      rw [Nat.add_zero, List.drop_zero] at hzero
      rw [if_pos (hboundary.mpr hjwt), if_pos hjwt, hzero, jwtLenBytes_encode, Option.map_map]
      cases hlen : jwtLen rest with
      | none => rfl
      | some len =>
        have hascii := offset_jwt hlen
        rw [Option.map_some, Option.map_some, Function.comp_apply]
        dsimp only
        rw [hascii]
        rfl
    · rw [if_neg fun h => hjwt (hboundary.mp h), if_neg hjwt]
      by_cases hscheme : SCHEME_END.toList <+: rest
      · have hthree : offset rest SCHEME_END.length = SCHEME_END.utf8ByteSize := by
          obtain ⟨tail, rfl⟩ := hscheme
          rfl
        rw [if_pos hscheme, if_pos hscheme]
        dsimp only
        rw [hdrop, ← hthree, drop_offset, userinfoPasswordBytes_encode, Option.map_map,
          Option.map_map]
        congr 1
        funext s
        dsimp only [Function.comp_apply]
        rw [Nat.add_assoc, Nat.add_assoc, ← offset_add, ← offset_add]
      · rw [if_neg hscheme, if_neg hscheme]
        rfl

end Agreement

section Loop

/-- From a place between two characters the loop ends, every slice it takes is between characters, and
what it has put out by then is what the scan of the characters gives. -/
theorem maskLoop_scan {text : List Char} (fuel : Nat) (done pending rest out : List Char)
    (htext : text = done ++ pending ++ rest) (hfuel : rest.length < fuel) :
    ∃ copied out' tail,
      maskLoop text fuel (encode (done ++ pending)).length (encode done).length out =
        some (copied, out') ∧
      after copied text = some tail ∧
      out' ++ tail = out ++ pending ++ scan (done ++ pending).getLast? rest ∧
      (copied = 0 → (encode done).length = 0 ∧ out' = out) := by
  induction fuel generalizing done pending rest out with
  | zero => omega
  | succ fuel ih =>
    have hpiece : (encode text).length = (encode (done ++ pending)).length + (encode rest).length := by
      rw [htext, encode_append, List.length_append]
    cases rest with
    | nil =>
      have hend : ¬ (encode (done ++ pending)).length < (encode text).length := by
        rw [hpiece]
        exact Nat.lt_irrefl _
      refine ⟨(encode done).length, out, pending, ?_, ?_, ?_, fun h => ⟨h, rfl⟩⟩
      · rw [maskLoop, if_neg hend]
      · rw [htext, List.append_nil, after_encode]
      · rw [scan, splice, List.append_nil]
    | cons c rest =>
      have hpos := c.utf8Size_pos
      have hlt : (encode (done ++ pending)).length < (encode text).length := by
        rw [hpiece, length_encode_cons]
        omega
      have hrest : after (encode (done ++ pending)).length text = some (c :: rest) := by
        rw [htext, after_encode]
      have hmasked := maskedEnd_encode (done ++ pending) (c :: rest)
      rw [← htext] at hmasked
      rw [maskLoop, if_pos hlt, hrest, Option.bind_some, hmasked]
      rw [List.length_cons] at hfuel
      cases hshape : tokenShape (done ++ pending).getLast? (c :: rest) with
      | none =>
        obtain ⟨copied, out', tail, hloop, hafter, hout, hzero⟩ :=
          ih done (pending ++ [c]) rest out (by rw [htext]; simp) (by omega)
        have hnext : (encode (done ++ (pending ++ [c]))).length =
            (encode (done ++ pending)).length + c.utf8Size := by
          rw [← List.append_assoc, encode_append (done ++ pending), List.length_append,
            length_encode_cons]
          rfl
        have hlast : (done ++ (pending ++ [c])).getLast? = some c := by
          rw [← List.append_assoc, List.getLast?_concat]
        refine ⟨copied, out', tail, ?_, hafter, ?_, hzero⟩
        · rw [Option.map_none, ← hloop, hnext]
          rfl
        · have hstep : scan (done ++ pending).getLast? (c :: rest) = c :: scan (some c) rest :=
            splice_none hshape
          rw [hout, hlast, hstep]
          simp
      | some span =>
        obtain ⟨start, stop⟩ := span
        obtain ⟨hspan, hbound⟩ := tokenShape_sound _ _ _ _ hshape
        have hfront : (encode (done ++ pending)).length + offset (c :: rest) start =
            (encode (done ++ (pending ++ (c :: rest).take start))).length := by
          unfold offset
          rw [← List.append_assoc, encode_append (done ++ pending), List.length_append]
        have hback : (encode (done ++ pending)).length + offset (c :: rest) stop =
            (encode (done ++ pending ++ (c :: rest).take stop)).length := by
          unfold offset
          rw [encode_append (done ++ pending), List.length_append]
        have hslice : slice (encode done).length
            (encode (done ++ (pending ++ (c :: rest).take start))).length text =
              some (pending ++ (c :: rest).take start) := by
          have hsplit : text =
              done ++ (pending ++ (c :: rest).take start) ++ (c :: rest).drop start := by
            rw [htext, ← List.append_assoc done, List.append_assoc (done ++ pending),
              List.take_append_drop]
          rw [hsplit]
          exact slice_encode done (pending ++ (c :: rest).take start) ((c :: rest).drop start)
        have hsplit : text = done ++ pending ++ (c :: rest).take stop ++ [] ++
            (c :: rest).drop stop := by
          rw [List.append_nil, List.append_assoc (done ++ pending), List.take_append_drop, htext]
        obtain ⟨copied, out', tail, hloop, hafter, hout, hzero⟩ :=
          ih (done ++ pending ++ (c :: rest).take stop) [] ((c :: rest).drop stop)
            (out ++ (pending ++ (c :: rest).take start) ++ MASK.toList) hsplit
            (by rw [List.length_drop, List.length_cons]; omega)
        have hlast : lastOf (done ++ pending).getLast? stop (c :: rest) =
            (done ++ pending ++ (c :: rest).take stop).getLast? := by
          unfold lastOf
          exact List.getLast?_append.symm
        refine ⟨copied, out', tail, ?_, hafter, ?_, ?_⟩
        · rw [List.append_nil] at hloop
          rw [Option.map_some]
          dsimp only
          rw [hfront, hback, hslice, Option.bind_some]
          exact hloop
        · have hstep : scan (done ++ pending).getLast? (c :: rest) = (c :: rest).take start ++
              MASK.toList ++ scan (lastOf (done ++ pending).getLast? stop (c :: rest))
                ((c :: rest).drop stop) := splice_found hshape (by omega)
          rw [hout, List.append_nil, List.append_nil, ← hlast, hstep]
          simp only [List.append_assoc]
        · intro h
          have hempty := (hzero h).1
          have hstop : 0 < offset (c :: rest) stop ↔ 0 < stop := offset_pos hbound
          rw [← hback] at hempty
          omega

/-- The scan over bytes ends, never slices within a character, and gives what the scan over
characters gives. -/
theorem maskTokenShapesBytes_eq (text : String) {fuel : Nat} (h : (Text.utf8 text).length < fuel) :
    maskTokenShapesBytes fuel text = some (maskTokenShapes text) := by
  unfold maskTokenShapesBytes maskTokenShapes
  split
  · rfl
  · have hlength := Text.length_le_utf8 text
    obtain ⟨copied, out, tail, hloop, hafter, hout, hzero⟩ :=
      maskLoop_scan fuel [] [] text.toList [] (Eq.refl text.toList) (by omega)
    have hscan : out ++ tail = maskTokens text.toList := hout
    have hloop' : maskLoop text.toList fuel 0 0 [] = some (copied, out) := hloop
    rw [hloop', Option.bind_some]
    dsimp only
    by_cases hcopied : copied = 0
    · obtain ⟨-, rfl⟩ := hzero hcopied
      rw [hcopied] at hafter
      rw [if_pos hcopied, ← hscan]
      have htail : tail = text.toList := by
        rw [after] at hafter
        exact (Option.some.inj hafter).symm
      rw [htail, List.nil_append, String.ofList_toList]
    · rw [if_neg hcopied, hafter, Option.map_some, hscan]

end Loop

/-- A text with none of the three marks has no span to mask. -/
theorem spansAt_unmarked {text : String} (h : (!Text.contains text BEARER &&
    !Text.contains text JWT_HEAD && !Text.contains text SCHEME_END) = true) :
    spansAt tokenShape text.toList 0 = [] := by
  have hmark {mark : String} (hnone : Text.contains text mark = false) {front rest : List Char} :
      text.toList ≠ front ++ (mark.toList ++ rest) := by
    intro htext
    have hcontains : Text.contains text mark = true := by
      rw [Text.contains_iff, htext, ← List.append_assoc]
      exact List.infix_append front mark.toList rest
    rw [hcontains] at hnone
    cases hnone
  simp only [Bool.and_eq_true, Bool.not_eq_true'] at h
  obtain ⟨⟨hbearer, hjwt⟩, hscheme⟩ := h
  rw [List.eq_nil_iff_forall_not_mem]
  intro span hspan
  obtain ⟨i, start, stop, -, hfound, -⟩ := mem_spansAt tokenShape_sound .first hspan
  rcases found_cases hfound with ⟨hshape, -⟩ | ⟨hshape, -⟩ | ⟨m, hshape, -⟩
  · obtain ⟨front, run, rest, htext, -⟩ := hshape
    exact hmark hbearer htext
  · obtain ⟨front, header, payload, signature, rest, htext, -, -, -, ⟨more, rfl⟩, -⟩ := hshape
    rw [List.append_assoc JWT_HEAD.toList] at htext
    exact hmark hjwt htext
  · obtain ⟨front, user, password, rest, htext, -⟩ := hshape
    exact hmark hscheme htext

theorem toList_maskTokenShapes (text : String) : (maskTokenShapes text).toList =
    fill MASK.toList text.toList 0 (spansAt tokenShape text.toList 0) := by
  unfold maskTokenShapes
  split
  · rename_i hnone
    rw [spansAt_unmarked hnone]
    rfl
  · rw [String.toList_ofList]
    exact splice_eq_fill tokenShape_sound 0 (Nat.zero_le _)

/-- Whatever the text, `mask_token_shapes` comes to its end with every slice between characters, and
gives the text with the mask over spans of the credentials in it, all else copied in its order. The
spans leave out no part of a credential run, of a JWT or of a password in those texts where none of
them hides another, and only there. -/
theorem credentials_masked_iff (text : String) :
    (∀ fuel, (Text.utf8 text).length < fuel →
      maskTokenShapesBytes fuel text = some (maskTokenShapes text)) ∧
    (maskTokenShapes text).toList =
      fill MASK.toList text.toList 0 (spansAt tokenShape text.toList 0) ∧
    Ordered text.toList.length 0 (spansAt tokenShape text.toList 0) ∧
    (∀ j, (∃ span ∈ spansAt tokenShape text.toList 0, span.1 ≤ j ∧ j < span.2) →
      Secret text.toList j) ∧
    ((∀ j, Secret text.toList j →
      ∃ span ∈ spansAt tokenShape text.toList 0, span.1 ≤ j ∧ j < span.2) ↔
      ¬ Swallowed text.toList ∧ ¬ JwtInUser text.toList ∧ ¬ JwtsOverlap text.toList) := by
  refine ⟨fun fuel h => maskTokenShapesBytes_eq text h, toList_maskTokenShapes text,
    ordered_spansAt tokenShape_sound 0 (Nat.zero_le _), fun j h => ?_, ?_⟩
  · exact secret_of_masked ((masked_iff tokenShape_sound).mpr h)
  · rw [← secrets_masked_iff]
    exact forall_congr' fun j => imp_congr_right fun _ => (masked_iff tokenShape_sound).symm

/-- The first `Bearer ` takes the second word for its credential, and the token after that is
copied. -/
theorem second_keyword_copied :
    maskTokenShapesBytes 18 "Bearer Bearer xyz" = some "Bearer [REDACTED] xyz" ∧
    Secret "Bearer Bearer xyz".toList 14 ∧
    ¬ ∃ span ∈ spansAt tokenShape "Bearer Bearer xyz".toList 0, span.1 ≤ 14 ∧ 14 < span.2 := by
  refine ⟨?_, ?_, by decide +kernel⟩
  · rw [maskTokenShapesBytes_eq "Bearer Bearer xyz" (by decide +kernel)]
    decide +kernel
  · have hbearer : BearerAt "Bearer Bearer xyz".toList 7 17 :=
      ⟨BEARER.toList, "xyz".toList, [], by decide +kernel, by decide +kernel, by decide +kernel,
        by decide +kernel, by decide +kernel, by decide +kernel⟩
    exact .bearer hbearer (by decide +kernel) (by decide)

end Tronc.Secrets
