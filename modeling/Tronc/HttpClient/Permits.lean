import Mathlib.Data.List.Forall2
import Tronc.HttpClient.Policy

namespace Tronc.HttpClient

variable {crates : UrlCrates} {policy : FetchPolicy} {refuses : IpAddr → Bool} {url : Url}

/-- The path spells the names, segment by segment and in one way only. -/
def Spells (crates : UrlCrates) (path : String) (names : List String) : Prop :=
  ∃ rest decoded, Text.stripPrefix path "/" = some rest ∧
    List.Forall₂ (fun segment text => crates.decode segment = some text ∧ isAmbiguous text = false)
      (split '/' rest) decoded ∧
    (∀ segment ∈ (split '/' rest).dropLast, segment ≠ "") ∧
    names = if decoded.getLast? = some "" then decoded.dropLast else decoded

/-- A path under a prefix goes on where the prefix ends, and past it when that is a directory. -/
def PathPrefix.Covers (crates : UrlCrates) (pre : PathPrefix) (path : String) : Prop :=
  ∃ names, Spells crates path names ∧ pre.segments <+: names ∧
    (pre.directory = true → pre.segments ≠ names)

/-- What a policy asks of a URL, before any name is looked up. -/
structure Permits (crates : UrlCrates) (policy : FetchPolicy) (refuses : IpAddr → Bool) (url : Url)
    (host : Host) : Prop where
  hasHost : url.host = some host
  scheme : url.scheme = "https" ∨ url.scheme = "http" ∧ policy.httpsOnly = false
  credentials : url.username = "" ∧ url.password = none
  port : policy.httpsOnly = true → url.port = none
  listed : ∀ hosts, policy.hosts = some hosts → ∃ entry ∈ hosts.entries,
    entry.host.isMatch host = true ∧ ∀ pre, entry.path = some pre → pre.Covers crates url.path
  name : policy.appliesDenyList = true → ∀ domain, host = .domain domain → isLocalName domain = false
  literal : policy.appliesDenyList = true → ∀ ip, host.literal = some ip → refuses ip = false

theorem decodeSegments_eq_some {segments decoded : List String} :
    PathPrefix.decodeSegments crates segments = some decoded ↔
      List.Forall₂ (fun segment text => crates.decode segment = some text ∧
        isAmbiguous text = false) segments decoded ∧
      ∀ segment ∈ segments.dropLast, segment ≠ "" := by
  induction segments generalizing decoded with
  | nil =>
    rw [PathPrefix.decodeSegments, Option.some.injEq, List.forall₂_nil_left_iff, eq_comm]
    exact ⟨fun h => ⟨h, fun _ hs => absurd hs List.not_mem_nil⟩, And.left⟩
  | cons segment rest ih =>
    have hempty : (∀ s ∈ (segment :: rest).dropLast, s ≠ "") ↔
        ¬ (segment = "" ∧ rest ≠ []) ∧ ∀ s ∈ rest.dropLast, s ≠ "" := by
      cases rest with
      | nil => simp
      | cons next rest => simp [List.dropLast_cons_cons]
    rw [hempty, PathPrefix.decodeSegments]
    by_cases hbad : segment = "" ∧ rest ≠ []
    · rw [if_pos hbad]
      exact iff_of_false nofun fun h => h.2.1 hbad
    · rw [if_neg hbad]
      cases hd : crates.decode segment with
      | none =>
        refine iff_of_false nofun fun h => ?_
        cases h.1 with
        | cons hfirst _ => cases hd.symm.trans hfirst.1
      | some text =>
        dsimp only
        cases ha : isAmbiguous text with
        | true =>
          rw [if_pos rfl]
          refine iff_of_false nofun fun h => ?_
          cases h.1 with
          | cons hfirst _ =>
            obtain rfl := Option.some.inj (hd.symm.trans hfirst.1)
            cases ha.symm.trans hfirst.2
        | false =>
          rw [if_neg Bool.false_ne_true, Option.map_eq_some_iff]
          constructor
          · rintro ⟨more, hmore, rfl⟩
            obtain ⟨hall, hne⟩ := ih.mp hmore
            exact ⟨.cons ⟨hd, ha⟩ hall, hbad, hne⟩
          · rintro ⟨hall, _, hne⟩
            cases hall with
            | @cons _ text' _ more hfirst hmore =>
              obtain rfl := Option.some.inj (hd.symm.trans hfirst.1)
              exact ⟨more, ih.mpr ⟨hmore, hne⟩, rfl⟩

/-- Names agree with a prefix where they are long enough and equal pair by pair. -/
theorem zip_all_beq_iff {expected actual : List String} :
    (expected.length ≤ actual.length ∧
      ((expected.zip actual).all fun (e, a) => e == a) = true) ↔ expected <+: actual := by
  induction expected generalizing actual with
  | nil => simp
  | cons e expected ih =>
    cases actual with
    | nil => simp
    | cons a actual =>
      rw [List.zip_cons_cons, List.all_cons, Bool.and_eq_true, beq_iff_eq, List.cons_prefix_cons,
        ← ih, List.length_cons, List.length_cons, Nat.succ_le_succ_iff]
      exact and_left_comm

/-- A prefix that is not the whole is shorter. -/
theorem prefix_ne_iff {expected actual : List String} (h : expected <+: actual) :
    expected ≠ actual ↔ expected.length < actual.length := by
  constructor
  · intro hne
    exact lt_of_le_of_ne h.length_le fun heq => hne (h.eq_of_length heq)
  · rintro hlt rfl
    exact absurd hlt (Nat.lt_irrefl _)

theorem PathPrefix.admits_iff {pre : PathPrefix} {path : String} :
    pre.admits crates path = true ↔ pre.Covers crates path := by
  unfold admits
  cases hrest : Text.stripPrefix path "/" with
  | none =>
    refine iff_of_false Bool.false_ne_true ?_
    rintro ⟨names, ⟨rest, decoded, hpath, _⟩, _⟩
    cases hrest.symm.trans hpath
  | some rest =>
    dsimp only
    cases hdecoded : decodeSegments crates (split '/' rest) with
    | none =>
      refine iff_of_false Bool.false_ne_true ?_
      rintro ⟨names, ⟨rest', decoded, hpath, hall, hne, _⟩, _⟩
      obtain rfl := Option.some.inj (hrest.symm.trans hpath)
      cases hdecoded.symm.trans (decodeSegments_eq_some.mpr ⟨hall, hne⟩)
    | some decoded =>
      dsimp only
      generalize hnames : (if decoded.getLast? = some "" then decoded.dropLast else decoded) = names
      have hspells : Spells crates path names := by
        obtain ⟨hall, hne⟩ := decodeSegments_eq_some.mp hdecoded
        exact ⟨rest, decoded, hrest, hall, hne, hnames.symm⟩
      have hunique {names' : List String} (h : Spells crates path names') : names' = names := by
        obtain ⟨rest', decoded', hpath, hall, hne, hnames'⟩ := h
        obtain rfl := Option.some.inj (hrest.symm.trans hpath)
        have hsame := hdecoded.symm.trans (decodeSegments_eq_some.mpr ⟨hall, hne⟩)
        obtain rfl := Option.some.inj hsame
        exact hnames'.trans hnames
      rw [Bool.and_eq_true]
      constructor
      · rintro ⟨henough, hzip⟩
        cases hdir : pre.directory with
        | true =>
          rw [hdir, if_pos rfl, decide_eq_true_eq] at henough
          have hinit := zip_all_beq_iff.mp ⟨henough.le, hzip⟩
          exact ⟨names, hspells, hinit, fun _ => (prefix_ne_iff hinit).mpr henough⟩
        | false =>
          rw [hdir, if_neg Bool.false_ne_true, decide_eq_true_eq] at henough
          exact ⟨names, hspells, zip_all_beq_iff.mp ⟨henough, hzip⟩, fun h => by
            rw [hdir] at h
            cases h⟩
      · rintro ⟨names', hspells', hinit, hpast⟩
        obtain rfl := hunique hspells'
        obtain ⟨hle, hzip⟩ := zip_all_beq_iff.mpr hinit
        refine ⟨?_, hzip⟩
        cases hdir : pre.directory with
        | true => exact decide_eq_true ((prefix_ne_iff hinit).mp (hpast hdir))
        | false => exact decide_eq_true hle

theorem scan_eq_ok {entries : List AllowedEntry} {listed : Bool} :
    HostAllowlist.scan crates url entries listed = .ok () ↔
      ∃ entry ∈ entries, ∀ pre, entry.path = some pre → pre.Covers crates url.path := by
  induction entries generalizing listed with
  | nil => simp [HostAllowlist.scan]
  | cons entry rest ih =>
    rw [HostAllowlist.scan, List.exists_mem_cons_iff]
    cases hpath : entry.path with
    | none => exact iff_of_true rfl (.inl nofun)
    | some pre =>
      have hfirst : (∀ pre', some pre = some pre' → pre'.Covers crates url.path) ↔
          pre.admits crates url.path = true := by
        rw [PathPrefix.admits_iff]
        exact ⟨fun h => h pre rfl, fun h pre' heq => Option.some.inj heq ▸ h⟩
      rw [hfirst]
      dsimp only
      cases hadmits : pre.admits crates url.path with
      | true => exact iff_of_true (if_pos rfl) (.inl rfl)
      | false =>
        rw [if_neg Bool.false_ne_true, ih]
        exact ⟨.inr, fun h => h.resolve_left Bool.false_ne_true⟩

theorem HostAllowlist.admits_iff {hosts : HostAllowlist} {host : Host} :
    hosts.admits crates host url = .ok () ↔ ∃ entry ∈ hosts.entries,
      entry.host.isMatch host = true ∧ ∀ pre, entry.path = some pre →
        pre.Covers crates url.path := by
  unfold admits
  rw [scan_eq_ok]
  constructor
  · rintro ⟨entry, hentry, hpath⟩
    obtain ⟨hin, hmatch⟩ := List.mem_filter.mp hentry
    exact ⟨entry, hin, hmatch, hpath⟩
  · rintro ⟨entry, hin, hmatch, hpath⟩
    exact ⟨entry, List.mem_filter.mpr ⟨hin, hmatch⟩, hpath⟩

namespace FetchPolicy

theorem schemeOk_iff : policy.schemeOk url = true ↔
    url.scheme = "https" ∨ url.scheme = "http" ∧ policy.httpsOnly = false := by
  cases policy with
  | webhook | allowlist =>
    simp only [schemeOk, httpsOnly, Bool.or_eq_true, beq_iff_eq, and_true]
    exact or_comm
  | archiveFetch hosts => simp [schemeOk, httpsOnly]

/-- The hosts rule of a policy, where it has one. -/
theorem listed_iff {host : Host} :
    (policy.hosts.elim (.ok ()) fun hosts => hosts.admits crates host url) =
        (.ok () : Except GuardError Unit) ↔
      ∀ hosts, policy.hosts = some hosts → ∃ entry ∈ hosts.entries,
        entry.host.isMatch host = true ∧ ∀ pre, entry.path = some pre →
          pre.Covers crates url.path := by
  cases policy.hosts with
  | none => exact iff_of_true rfl nofun
  | some hosts =>
    rw [Option.elim_some, HostAllowlist.admits_iff]
    exact ⟨fun h hosts' heq => Option.some.inj heq ▸ h, fun h => h hosts rfl⟩

theorem checkAddress_eq_ok {host : Host} : checkAddress refuses host = .ok () ↔
    (∀ domain, host = .domain domain → isLocalName domain = false) ∧
      ∀ ip, host.literal = some ip → refuses ip = false := by
  have hif (bad : Bool) (e : GuardError) :
      (if bad then .error e else .ok () : Except GuardError Unit) = .ok () ↔ bad = false := by
    cases bad with
    | true => exact iff_of_false (fun h => nomatch h) (fun h => nomatch h)
    | false => exact iff_of_true rfl rfl
  cases host with
  | domain name =>
    rw [checkAddress, hif]
    refine ⟨fun h => ⟨fun domain heq => ?_, fun ip hip => ?_⟩, fun h => h.1 name rfl⟩
    · rw [← Host.domain.inj heq]
      exact h
    · cases hip
  | ipv4 bits | ipv6 bits =>
    rw [checkAddress, hif]
    refine ⟨fun h => ⟨fun domain heq => ?_, fun ip hip => ?_⟩, fun h => h.2 _ rfl⟩
    · cases heq
    · rw [← Option.some.inj hip]
      exact h

/-- `check` admits the URLs that the policy permits, and no others. -/
theorem check_eq_ok : policy.check crates url refuses = .ok () ↔
    ∃ host, Permits crates policy refuses url host := by
  unfold check
  cases hscheme : policy.schemeOk url with
  | false =>
    refine iff_of_false nofun ?_
    rintro ⟨host, h⟩
    rw [schemeOk_iff.mpr h.scheme] at hscheme
    cases hscheme
  | true =>
    rw [if_neg (by simp)]
    by_cases hcredentials : url.username ≠ "" ∨ url.password.isSome
    · rw [if_pos hcredentials]
      refine iff_of_false nofun ?_
      rintro ⟨host, h⟩
      rw [h.credentials.1, h.credentials.2] at hcredentials
      simp at hcredentials
    · rw [if_neg hcredentials]
      by_cases hport : policy.httpsOnly ∧ url.port.isSome
      · rw [if_pos hport]
        refine iff_of_false nofun ?_
        rintro ⟨host, h⟩
        rw [h.port hport.1] at hport
        cases hport.2
      · rw [if_neg hport]
        have hcredentials : url.username = "" ∧ url.password = none := by
          simpa [not_or] using hcredentials
        have hport : policy.httpsOnly = true → url.port = none := by
          simpa using hport
        cases hhost : url.host with
        | none =>
          refine iff_of_false nofun ?_
          rintro ⟨host, h⟩
          cases hhost.symm.trans h.hasHost
        | some host =>
          have hpermits : (∃ host', Permits crates policy refuses url host') ↔
              Permits crates policy refuses url host := by
            refine ⟨fun ⟨host', h⟩ => ?_, fun h => ⟨host, h⟩⟩
            obtain rfl := Option.some.inj (hhost.symm.trans h.hasHost)
            exact h
          rw [hpermits]
          dsimp only
          cases hlisted : policy.hosts.elim (.ok ()) fun hosts => hosts.admits crates host url with
          | error e =>
            refine iff_of_false nofun fun h => ?_
            cases hlisted.symm.trans (listed_iff.mpr h.listed)
          | ok value =>
            have hlisted := listed_iff.mp hlisted
            dsimp only
            cases hdeny : policy.appliesDenyList with
            | false =>
              refine iff_of_true rfl ⟨hhost, schemeOk_iff.mp hscheme, hcredentials, hport, hlisted,
                fun h => ?_, fun h => ?_⟩
              · rw [hdeny] at h
                cases h
              · rw [hdeny] at h
                cases h
            | true =>
              rw [if_neg (by simp), checkAddress_eq_ok]
              constructor
              · rintro ⟨hname, hliteral⟩
                exact ⟨hhost, schemeOk_iff.mp hscheme, hcredentials, hport, hlisted,
                  fun _ => hname, fun _ => hliteral⟩
              · intro h
                exact ⟨h.name hdeny, h.literal hdeny⟩

end FetchPolicy

end Tronc.HttpClient
