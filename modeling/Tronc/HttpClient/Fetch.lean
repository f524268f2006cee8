import Tronc.HttpClient.Guard
import Tronc.HttpClient.Permits

namespace Tronc.HttpClient

open Transition

section Rules

variable {crates : UrlCrates} {client : GuardedClient} {builder : GuardedClientBuilder}

theorem vetted_eq_ok {rule : AddressRule} {answer : Option (List IpAddr)}
    {addresses : List IpAddr} : vetted rule answer = .ok addresses ↔
      answer = some addresses ∧ addresses ≠ [] ∧ ∀ ip ∈ addresses, rule.refuses ip = false := by
  cases answer with
  | none => exact iff_of_false (fun h => nomatch h) fun h => nomatch h.1
  | some found =>
    rw [vetted]
    cases found with
    | nil =>
      refine iff_of_false (fun h => nomatch h) fun h => h.2.1 (Option.some.inj h.1).symm
    | cons first rest =>
      rw [List.isEmpty_cons, if_neg Bool.false_ne_true]
      by_cases hany : (first :: rest).any rule.refuses = true
      · rw [if_pos hany]
        refine iff_of_false (fun h => nomatch h) fun h => ?_
        obtain ⟨ip, hip, hrefuses⟩ := List.any_eq_true.mp hany
        rw [h.2.2 ip (Option.some.inj h.1 ▸ hip)] at hrefuses
        cases hrefuses
      · rw [if_neg hany]
        constructor
        · intro h
          obtain rfl := Except.ok.inj h
          refine ⟨rfl, List.cons_ne_nil _ _, fun ip hip => ?_⟩
          exact Bool.eq_false_iff.mpr fun h => hany (List.any_eq_true.mpr ⟨ip, hip, h⟩)
        · intro h
          rw [Option.some.inj h.1]

/-- One denied address refuses the whole answer. -/
theorem vetted_denied {rule : AddressRule} {addresses : List IpAddr} {ip : IpAddr}
    (hip : ip ∈ addresses) (hrefuses : rule.refuses ip = true) :
    vetted rule (some addresses) = .error .deniedAddress := by
  have hne : addresses.isEmpty = false := by
    cases addresses with
    | nil => cases hip
    | cons => rfl
  rw [vetted, hne, if_neg Bool.false_ne_true,
    if_pos (List.any_eq_true.mpr ⟨ip, hip, hrefuses⟩)]

theorem checkUrl_eq_ok {text : String} {url : Url} : client.checkUrl crates text = .ok url ↔
    crates.parse text = some url ∧
      ∃ host, Permits crates client.policy client.rule.refuses url host := by
  unfold GuardedClient.checkUrl
  cases hparse : crates.parse text with
  | none => exact iff_of_false (fun h => nomatch h) fun h => nomatch h.1
  | some parsed =>
    rw [← FetchPolicy.check_eq_ok, Option.some.injEq]
    dsimp only
    cases hcheck : client.policy.check crates parsed client.rule.refuses with
    | error refusal =>
      refine iff_of_false (fun h => nomatch h) fun h => ?_
      rw [← h.1] at h
      cases hcheck.symm.trans h.2
    | ok value =>
      refine ⟨fun h => ?_, fun h => by rw [h.1]⟩
      obtain rfl := Except.ok.inj h
      exact ⟨rfl, hcheck⟩

/-- A redirect that is followed is one of the policy's, and leads to a URL it permits. -/
theorem redirect_follow {previous : List Url} {url : Url}
    (h : client.redirect crates previous url = .follow) :
    previous.length ≤ client.policy.maxRedirects ∧
      ∃ host, Permits crates client.policy client.rule.refuses url host := by
  unfold GuardedClient.redirect at h
  split at h
  · cases h
  · rename_i max hmax
    split at h
    · cases h
    · rename_i hlength
      split at h
      · rename_i hcheck
        exact ⟨hmax ▸ Nat.le_of_not_lt hlength, FetchPolicy.check_eq_ok.mp hcheck⟩
      · cases h

theorem build_refuses {ip : IpAddr} (h : builder.policy.appliesDenyList = true) :
    builder.build.rule.refuses ip =
      (!(builder.permitLoopback && isLoopback ip) && isDeniedIp ip) := by
  unfold AddressRule.refuses GuardedClientBuilder.build
  rw [h, Bool.not_true, if_neg Bool.false_ne_true]
  cases builder.permitLoopback && isLoopback ip <;> rfl

theorem build_refuses_none {ip : IpAddr} (h : builder.policy.appliesDenyList = false) :
    builder.build.rule.refuses ip = false := by
  unfold AddressRule.refuses GuardedClientBuilder.build
  rw [h, Bool.not_false, if_pos rfl]

/-- What a policy permits is not refused where the host is an address. -/
theorem Permits.not_refused {url : Url} {host : Host} {ip : IpAddr}
    (h : Permits crates builder.policy builder.build.rule.refuses url host)
    (hip : host.literal = some ip) : builder.build.rule.refuses ip = false := by
  cases hdeny : builder.policy.appliesDenyList with
  | true => exact h.literal hdeny ip hip
  | false => exact build_refuses_none hdeny

end Rules

variable {crates : UrlCrates} {client : GuardedClient} {made made' : List Connection}
  {fetch fetch' : Fetch} {event : Event}

/-- The URL of the hop in hand. -/
def Stage.hop : Stage → Option Url
  | .connecting url | .pinned url _ | .sent url => some url
  | .idle | .responded | .refused _ | .failed => none

/-- What one step of a fetch can do. -/
inductive Goes (crates : UrlCrates) (client : GuardedClient) (made : List Connection)
    (fetch : Fetch) : Event → Fetch → List Connection → Prop where
  | requests (text : String) (url : Url) : fetch.stage = .idle →
      client.checkUrl crates text = .ok url →
      Goes crates client made fetch (.request text) ⟨.connecting url, [url]⟩ made
  | rejects (text : String) (refusal : GuardError) : fetch.stage = .idle →
      client.checkUrl crates text = .error refusal →
      Goes crates client made fetch (.request text) { fetch with stage := .refused refusal } made
  | dials (url : Url) (host : Host) (ip : IpAddr) : fetch.stage = .connecting url →
      url.host = some host → host.literal = some ip →
      Goes crates client made fetch .dial { fetch with stage := .pinned url [ip] } made
  | resolves (url : Url) (name : String) (answer : Option (List IpAddr)) (addresses : List IpAddr) :
      fetch.stage = .connecting url → url.host = some (.domain name) →
      vetted client.rule answer = .ok addresses →
      Goes crates client made fetch (.resolve answer)
        { fetch with stage := .pinned url addresses } made
  | denies (url : Url) (name : String) (answer : Option (List IpAddr)) (refusal : GuardError) :
      fetch.stage = .connecting url → url.host = some (.domain name) →
      vetted client.rule answer = .error refusal →
      Goes crates client made fetch (.resolve answer) { fetch with stage := .refused refusal } made
  | connects (url : Url) (addresses : List IpAddr) (ip : IpAddr) :
      fetch.stage = .pinned url addresses → ip ∈ addresses →
      Goes crates client made fetch (.connect ip) fetch (made ++ [⟨url, ip⟩])
  | sends (url : Url) (c : Connection) : fetch.stage.hop = some url →
      c ∈ made → c.serves url = true →
      Goes crates client made fetch (.send c) { fetch with stage := .sent url } made
  | follows (url location : Url) : fetch.stage = .sent url →
      client.redirect crates fetch.hops location = .follow →
      Goes crates client made fetch (.redirect location)
        ⟨.connecting location, fetch.hops ++ [location]⟩ made
  | bounces (url location : Url) (refusal : GuardError) : fetch.stage = .sent url →
      client.redirect crates fetch.hops location = .error refusal →
      Goes crates client made fetch (.redirect location)
        { fetch with stage := .refused refusal } made
  | stops (url location : Url) : fetch.stage = .sent url →
      client.redirect crates fetch.hops location = .stop →
      Goes crates client made fetch (.redirect location) { fetch with stage := .responded } made
  | responds (url : Url) : fetch.stage = .sent url →
      Goes crates client made fetch .respond { fetch with stage := .responded } made
  | fails (url : Url) : fetch.stage.hop = some url →
      Goes crates client made fetch .fail { fetch with stage := .failed } made

theorem step_goes (h : fetch.step crates client made event = some (fetch', made')) :
    Goes crates client made fetch event fetch' made' := by
  cases event with
  | request text =>
    simp only [Fetch.step] at h
    split at h
    · rename_i hidle
      split at h
      · rename_i url hok
        cases h
        exact .requests text url hidle hok
      · rename_i refusal herr
        cases h
        exact .rejects text refusal hidle herr
    · cases h
  | dial =>
    simp only [Fetch.step] at h
    split at h
    · rename_i url hstage
      split at h
      · cases h
      · obtain ⟨ip, hip, hsame⟩ := Option.map_eq_some_iff.mp h
        obtain ⟨host, hhost, hliteral⟩ := Option.bind_eq_some_iff.mp hip
        cases hsame
        exact .dials url host ip hstage hhost hliteral
    · cases h
  | resolve answer =>
    simp only [Fetch.step] at h
    split at h
    · rename_i url hstage
      split at h
      · cases h
      · split at h
        · rename_i name hhost
          split at h
          · rename_i addresses hok
            cases h
            exact .resolves url name answer addresses hstage hhost hok
          · rename_i refusal herr
            cases h
            exact .denies url name answer refusal hstage hhost herr
        · cases h
    · cases h
  | connect ip =>
    simp only [Fetch.step] at h
    split at h
    · rename_i url addresses hstage
      split at h
      · rename_i hip
        cases h
        exact .connects url addresses ip hstage hip
      · cases h
    · cases h
  | send c =>
    have sends (url : Url) (hhop : fetch.stage.hop = some url)
        (h : (if c ∈ made ∧ c.serves url then some ({ fetch with stage := .sent url }, made)
          else none) = some (fetch', made')) : Goes crates client made fetch (.send c) fetch' made' := by
      split at h
      · rename_i hc
        cases h
        exact .sends url c hhop hc.1 hc.2
      · cases h
    simp only [Fetch.step] at h
    split at h
    · rename_i url hstage
      exact sends url (by rw [hstage, Stage.hop]) h
    · rename_i url addresses hstage
      exact sends url (by rw [hstage, Stage.hop]) h
    · cases h
  | redirect location =>
    simp only [Fetch.step] at h
    split at h
    · rename_i url hstage
      split at h
      · rename_i hfollow
        cases h
        exact .follows url location hstage hfollow
      · rename_i hstop
        cases h
        exact .stops url location hstage hstop
      · rename_i refusal herr
        cases h
        exact .bounces url location refusal hstage herr
    · cases h
  | respond =>
    simp only [Fetch.step] at h
    split at h
    · rename_i url hstage
      cases h
      exact .responds url hstage
    · cases h
  | fail =>
    simp only [Fetch.step] at h
    split at h
    · rename_i url hstage
      cases h
      exact .fails url (by rw [hstage, Stage.hop])
    · rename_i url addresses hstage
      cases h
      exact .fails url (by rw [hstage, Stage.hop])
    · rename_i url hstage
      cases h
      exact .fails url (by rw [hstage, Stage.hop])
    · cases h

/-- An open connection is to an address the client does not refuse, for a URL its policy permits;
where the host spells an address, to that one. -/
def Connection.Vetted (crates : UrlCrates) (client : GuardedClient) (c : Connection) : Prop :=
  client.rule.refuses c.ip = false ∧
    ∃ host, Permits crates client.policy client.rule.refuses c.url host ∧
      ∀ ip, host.literal = some ip → c.ip = ip

/-- What holds of a fetch at every point. -/
structure Fetch.Guarded (crates : UrlCrates) (client : GuardedClient) (fetch : Fetch) : Prop where
  permits : ∀ url ∈ fetch.hops, ∃ host, Permits crates client.policy client.rule.refuses url host
  bounded : fetch.hops.length ≤ client.policy.maxRedirects + 1
  current : ∀ url, fetch.stage.hop = some url → url ∈ fetch.hops
  pinned : ∀ url addresses, fetch.stage = .pinned url addresses → ∀ ip ∈ addresses,
    client.rule.refuses ip = false ∧
      ∀ host literal, url.host = some host → host.literal = some literal → ip = literal

variable {builder : GuardedClientBuilder}

/-- A fetch that only ends, or is refused, stays guarded. -/
theorem Fetch.Guarded.ends (h : fetch.Guarded crates client) {stage : Stage}
    (hover : stage.hop = none) : ({ fetch with stage := stage } : Fetch).Guarded crates client where
  permits := h.permits
  bounded := h.bounded
  current url hurl := by cases hover.symm.trans hurl
  pinned url addresses hpinned := by
    have hstage : stage = .pinned url addresses := hpinned
    rw [hstage] at hover
    cases hover

theorem Goes.guarded (h : Goes crates builder.build made fetch event fetch' made')
    (hfetch : fetch.Guarded crates builder.build)
    (hmade : ∀ c ∈ made, c.Vetted crates builder.build) :
    fetch'.Guarded crates builder.build ∧ ∀ c ∈ made', c.Vetted crates builder.build := by
  cases h with
  | requests text url hidle hok =>
    obtain ⟨_, hpermits⟩ := checkUrl_eq_ok.mp hok
    refine ⟨⟨fun u hu => ?_, Nat.le_add_left 1 _, fun u hu => ?_, fun u a hp => ?_⟩, hmade⟩
    · rw [List.mem_singleton.mp hu]
      exact hpermits
    · rw [← Option.some.inj hu]
      exact List.mem_singleton_self url
    · cases hp
  | rejects text refusal => exact ⟨hfetch.ends rfl, hmade⟩
  | dials url host ip hstage hhost hliteral =>
    have hin : url ∈ fetch.hops := hfetch.current url (by rw [hstage, Stage.hop])
    obtain ⟨host', hpermits⟩ := hfetch.permits url hin
    obtain rfl := Option.some.inj (hhost.symm.trans hpermits.hasHost)
    refine ⟨⟨hfetch.permits, hfetch.bounded, fun u hu => ?_, fun u a hp => ?_⟩, hmade⟩
    · rw [← Option.some.inj hu]
      exact hin
    · obtain ⟨rfl, rfl⟩ := Stage.pinned.inj hp
      intro ip' hip'
      rw [List.mem_singleton.mp hip']
      refine ⟨hpermits.not_refused hliteral, fun h l hh hl => ?_⟩
      obtain rfl := Option.some.inj (hhost.symm.trans hh)
      exact Option.some.inj (hliteral.symm.trans hl)
  | resolves url name answer addresses hstage hhost hok =>
    obtain ⟨_, _, hnone⟩ := vetted_eq_ok.mp hok
    refine ⟨⟨hfetch.permits, hfetch.bounded, fun u hu => ?_, fun u a hp => ?_⟩, hmade⟩
    · rw [← Option.some.inj hu]
      exact hfetch.current url (by rw [hstage, Stage.hop])
    · obtain ⟨rfl, rfl⟩ := Stage.pinned.inj hp
      refine fun ip hip => ⟨hnone ip hip, fun h l hh hl => ?_⟩
      obtain rfl := Option.some.inj (hhost.symm.trans hh)
      cases hl
  | denies url name answer refusal => exact ⟨hfetch.ends rfl, hmade⟩
  | connects url addresses ip hstage hip =>
    refine ⟨hfetch, fun c hc => ?_⟩
    rcases List.mem_append.mp hc with hc | hc
    · exact hmade c hc
    · rw [List.mem_singleton.mp hc]
      obtain ⟨hfree, hsame⟩ := hfetch.pinned url addresses hstage ip hip
      obtain ⟨host, hpermits⟩ :=
        hfetch.permits url (hfetch.current url (by rw [hstage, Stage.hop]))
      exact ⟨hfree, host, hpermits, fun l hl => hsame host l hpermits.hasHost hl⟩
  | sends url c hhop =>
    refine ⟨⟨hfetch.permits, hfetch.bounded, fun u hu => ?_, fun u a hp => ?_⟩, hmade⟩
    · rw [← Option.some.inj hu]
      exact hfetch.current url hhop
    · cases hp
  | follows url location hstage hfollow =>
    obtain ⟨hbound, hpermits⟩ := redirect_follow hfollow
    refine ⟨⟨fun u hu => ?_, ?_, fun u hu => ?_, fun u a hp => ?_⟩, hmade⟩
    · rcases List.mem_append.mp hu with hu | hu
      · exact hfetch.permits u hu
      · rw [List.mem_singleton.mp hu]
        exact hpermits
    · rw [List.length_append, List.length_singleton]
      exact Nat.succ_le_succ hbound
    · rw [← Option.some.inj hu]
      exact List.mem_append_right _ (List.mem_singleton_self location)
    · cases hp
  | bounces url location refusal => exact ⟨hfetch.ends rfl, hmade⟩
  | stops url location => exact ⟨hfetch.ends rfl, hmade⟩
  | responds url => exact ⟨hfetch.ends rfl, hmade⟩
  | fails url => exact ⟨hfetch.ends rfl, hmade⟩

/-- Every connection of a client is vetted, and every fetch guarded. -/
structure Fetches.Guarded (crates : UrlCrates) (client : GuardedClient) (s : Fetches) : Prop where
  made : ∀ c ∈ s.made, c.Vetted crates client
  fetches : ∀ i, (s.fetches i).Guarded crates client

theorem fetching_step {s t : Fetches} {a : Nat × Event}
    (h : (fetching crates client).step s a t) :
    Goes crates client s.made (s.fetches a.1) a.2 (t.fetches a.1) t.made ∧
      ∀ i, i ≠ a.1 → t.fetches i = s.fetches i := by
  obtain ⟨⟨fetch, made⟩, hstep, rfl⟩ := Option.map_eq_some_iff.mp h
  have hself : Function.update s.fetches a.1 fetch a.1 = fetch := Function.update_self ..
  dsimp only
  rw [hself]
  exact ⟨step_goes hstep, fun i hi => Function.update_of_ne hi _ _⟩

theorem Fetches.guarded {s : Fetches} (h : (fetching crates builder.build).Reachable s) :
    s.Guarded crates builder.build := by
  refine Lts.Reachable.invariant (fun s hs => ?_) (fun s a t _ hs step => ?_) h
  · refine ⟨fun c hc => ?_, fun i => ?_⟩
    · rw [hs.1] at hc
      cases hc
    · rw [hs.2 i]
      refine ⟨fun u hu => ?_, Nat.zero_le _, fun u hu => ?_, fun u a hp => ?_⟩
      · cases hu
      · cases hu
      · cases hp
  · obtain ⟨hgoes, hother⟩ := fetching_step step
    obtain ⟨hfetch, hmade⟩ := hgoes.guarded (hs.fetches a.1) hs.made
    refine ⟨hmade, fun i => ?_⟩
    by_cases hi : i = a.1
    · rw [hi]
      exact hfetch
    · rw [hother i hi]
      exact hs.fetches i

end Tronc.HttpClient
