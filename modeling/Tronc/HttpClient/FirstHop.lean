import Tronc.HttpClient.Fetch

namespace Tronc.HttpClient

open Transition

/-- What may happen to a fetch of `text` on its first hop, where a lookup gives `answer`. -/
def Event.FirstHop (text : String) (answer : Option (List IpAddr)) : Event → Prop
  | .request given => given = text
  | .resolve given => given = answer
  | .redirect _ => False
  | .dial | .connect _ | .send _ | .respond | .fail => True

variable {crates : UrlCrates} {client : GuardedClient} {builder : GuardedClientBuilder}
  {s t : Fetches} {i : Nat} {text : String} {answer : Option (List IpAddr)} {refusal : GuardError}

/-- On its first hop, a fetch says what `validate` does. -/
def Stage.Tells (crates : UrlCrates) (client : GuardedClient) (text : String)
    (answer : Option (List IpAddr)) (stage : Stage) : Prop :=
  (∀ url, stage = .connecting url → client.checkUrl crates text = .ok url) ∧
    ∀ refusal, stage = .refused refusal → client.validate crates text answer = .error refusal

theorem validate_rejected (h : client.checkUrl crates text = .error refusal) :
    client.validate crates text answer = .error refusal := by
  rw [GuardedClient.validate, h]

theorem validate_domain {url : Url} {name : String} (h : client.checkUrl crates text = .ok url)
    (hhost : url.host = some (.domain name)) :
    client.validate crates text answer = (vetted client.rule answer).map fun _ => () := by
  rw [GuardedClient.validate, h]
  dsimp only
  rw [hhost]

theorem Goes.tells {made made' : List Connection} {fetch fetch' : Fetch} {event : Event}
    (h : Goes crates client made fetch event fetch' made') (hhop : event.FirstHop text answer)
    (htells : fetch.stage.Tells crates client text answer) :
    fetch'.stage.Tells crates client text answer := by
  have silent {stage : Stage} (hc : ∀ url, stage ≠ .connecting url)
      (hr : ∀ refusal, stage ≠ .refused refusal) : stage.Tells crates client text answer :=
    ⟨fun url hurl => absurd hurl (hc url), fun refusal h => absurd h (hr refusal)⟩
  cases h with
  | requests given url hidle hok =>
    obtain rfl : given = text := hhop
    refine ⟨fun u hu => ?_, fun refusal h => ?_⟩
    · rw [← Stage.connecting.inj hu]
      exact hok
    · cases h
  | rejects given refusal hidle herr =>
    obtain rfl : given = text := hhop
    refine ⟨fun u hu => ?_, fun refusal' h => ?_⟩
    · cases hu
    · rw [← Stage.refused.inj h]
      exact validate_rejected herr
  | denies url name given refusal hstage hhost herr =>
    obtain rfl : given = answer := hhop
    refine ⟨fun u hu => ?_, fun refusal' h => ?_⟩
    · cases hu
    · rw [← Stage.refused.inj h, validate_domain (htells.1 url hstage) hhost, herr]
      rfl
  | dials url host ip => exact silent (fun u h => nomatch h) (fun r h => nomatch h)
  | resolves url name given addresses =>
    exact silent (fun u h => nomatch h) (fun r h => nomatch h)
  | connects url addresses ip => exact htells
  | sends url c => exact silent (fun u h => nomatch h) (fun r h => nomatch h)
  | follows url location => exact hhop.elim
  | bounces url location => exact hhop.elim
  | stops url location => exact hhop.elim
  | responds url => exact silent (fun u h => nomatch h) (fun r h => nomatch h)
  | fails url => exact silent (fun u h => nomatch h) (fun r h => nomatch h)

/-- Whatever the other fetches do, a fetch refused on its first hop is one `validate` refuses. -/
theorem tells_run {tr : List (Taken Fetches (Nat × Event))}
    (h : (fetching crates client).Run s tr t) (hidle : (s.fetches i).stage = .idle)
    (hhop : ∀ x ∈ tr, x.label.1 = i → x.label.2.FirstHop text answer) :
    (t.fetches i).stage.Tells crates client text answer := by
  induction h with
  | start =>
    rw [hidle]
    exact ⟨fun url h => (nomatch h), fun refusal h => (nomatch h)⟩
  | @next t u tr a _ step ih =>
    have htells := ih fun x hx => hhop x (List.mem_append_left _ hx)
    obtain ⟨hgoes, hother⟩ := fetching_step step
    by_cases hi : i = a.1
    · subst hi
      exact hgoes.tells (hhop _ (List.mem_append_right _ (List.mem_singleton_self _)) rfl) htells
    · rw [hother i hi]
      exact htells

theorem Permits.https {url : Url} {host : Host} {refuses : IpAddr → Bool}
    (h : Permits crates builder.policy refuses url host) :
    (builder.build.httpsOnly && url.scheme != "https") = false := by
  rcases h.scheme with hs | ⟨_, hs⟩
  · rw [hs, bne_self_eq_false, Bool.and_false]
  · show (builder.policy.httpsOnly && url.scheme != "https") = false
    rw [hs, Bool.false_and]

/-- What `validate` refuses, a fetch refuses on its first hop. -/
theorem refused_run (hidle : (s.fetches i).stage = .idle)
    (h : builder.build.validate crates text answer = .error refusal) :
    ∃ t tr, (fetching crates builder.build).Run s tr t ∧
      (∀ x ∈ tr, x.label.1 = i ∧ x.label.2.FirstHop text answer) ∧
      (t.fetches i).stage = .refused refusal := by
  have hone (fetch : Fetch) (hstep : (s.fetches i).step crates builder.build s.made
      (.request text) = some (fetch, s.made)) :
      (fetching crates builder.build).Run s
        [⟨s, (i, .request text), ⟨s.made, Function.update s.fetches i fetch⟩⟩]
        ⟨s.made, Function.update s.fetches i fetch⟩ :=
    (Lts.Run.start s).next (congrArg (Option.map _) hstep)
  cases hcheck : builder.build.checkUrl crates text with
  | error cause =>
    obtain rfl := Except.error.inj ((validate_rejected hcheck).symm.trans h)
    refine ⟨_, _, hone _ (by rw [Fetch.step, hidle, hcheck]), fun x hx => ?_, ?_⟩
    · rw [List.mem_singleton.mp hx]
      exact ⟨rfl, rfl⟩
    · dsimp only
      rw [Function.update_self]
  | ok url =>
    obtain ⟨_, host, hpermits⟩ := checkUrl_eq_ok.mp hcheck
    cases host with
    | ipv4 bits | ipv6 bits =>
      rw [GuardedClient.validate, hcheck] at h
      dsimp only at h
      rw [hpermits.hasHost] at h
      cases h
    | domain name =>
      rw [validate_domain hcheck hpermits.hasHost] at h
      cases hvetted : vetted builder.build.rule answer with
      | ok addresses =>
        rw [hvetted] at h
        cases h
      | error cause =>
        rw [hvetted] at h
        obtain rfl : cause = refusal := Except.error.inj h
        have hfirst := hone ⟨.connecting url, [url]⟩ (by rw [Fetch.step, hidle, hcheck])
        refine ⟨⟨s.made, Function.update s.fetches i ⟨.refused cause, [url]⟩⟩, _,
          hfirst.next (a := (i, .resolve answer)) ?_, fun x hx => ?_, ?_⟩
        · show Fetches.step crates builder.build _ _ = _
          rw [Fetches.step]
          dsimp only
          rw [Function.update_self, Fetch.step]
          dsimp only
          rw [hpermits.https, if_neg Bool.false_ne_true, hpermits.hasHost]
          dsimp only
          rw [hvetted, Option.map_some, Function.update_idem]
        · rcases List.mem_append.mp hx with hx | hx
          · rw [List.mem_singleton.mp hx]
            exact ⟨rfl, rfl⟩
          · rw [List.mem_singleton.mp hx]
            exact ⟨rfl, rfl⟩
        · dsimp only
          rw [Function.update_self]

theorem validate_eq_error (hidle : (s.fetches i).stage = .idle) :
    builder.build.validate crates text answer = .error refusal ↔
      ∃ t tr, (fetching crates builder.build).Run s tr t ∧
        (∀ x ∈ tr, x.label.1 = i → x.label.2.FirstHop text answer) ∧
        (t.fetches i).stage = .refused refusal := by
  constructor
  · intro h
    obtain ⟨t, tr, hrun, hlabels, hrefused⟩ := refused_run hidle h
    exact ⟨t, tr, hrun, fun x hx _ => (hlabels x hx).2, hrefused⟩
  · rintro ⟨t, tr, hrun, hlabels, hrefused⟩
    exact (tells_run hrun hidle hlabels).2 refusal hrefused

/-- A refused fetch is over. -/
theorem refused_final {a : Event} (hrefused : (t.fetches i).stage = .refused refusal)
    (u : Fetches) : ¬ (fetching crates client).step t (i, a) u := by
  intro h
  obtain ⟨fetch, hfetch, _⟩ := Option.map_eq_some_iff.mp h
  have hover : (t.fetches i).step crates client t.made a = none := by
    cases a <;> rw [Fetch.step, hrefused]
  cases hover.symm.trans hfetch

/-- An answer with a denied address in it refuses the fetch, and no connection is made for it. -/
theorem denied_answer {addresses : List IpAddr} {ip : IpAddr} (hip : ip ∈ addresses)
    (hrefuses : client.rule.refuses ip = true)
    (h : (fetching crates client).step s (i, .resolve (some addresses)) t) :
    (t.fetches i).stage = .refused .deniedAddress ∧ t.made = s.made := by
  obtain ⟨hgoes, _⟩ := fetching_step h
  have hdenied := vetted_denied hip hrefuses
  generalize t.fetches i = fetch, t.made = made at hgoes ⊢
  cases hgoes with
  | resolves url name answer addresses' _ _ hok => cases hdenied.symm.trans hok
  | denies url name answer cause _ _ herr =>
    obtain rfl : .deniedAddress = cause := Except.error.inj (hdenied.symm.trans herr)
    exact ⟨rfl, rfl⟩

theorem new_refuses {policy : FetchPolicy} (ip : IpAddr) (h : policy.appliesDenyList = true) :
    (GuardedClient.new policy).rule.refuses ip = isDeniedIp ip :=
  @build_refuses (GuardedClient.builder policy) ip h

/-- A fetch holds to its client's policy, hop by hop: what it requests, where it connects, how often
it is redirected, and what it refuses. -/
theorem fetches_guarded (crates : UrlCrates) (policy : FetchPolicy) {s : Fetches}
    (h : (fetching crates (GuardedClient.new policy)).Reachable s) :
    (policy.appliesDenyList = true → ∀ c ∈ s.made, isDeniedIp c.ip = false) ∧
    (∀ c ∈ s.made, ∃ host, c.url.host = some host ∧ ∀ ip, host.literal = some ip → c.ip = ip) ∧
    (∀ i, ∀ url ∈ (s.fetches i).hops, ∃ host, Permits crates policy isDeniedIp url host) ∧
    (∀ i, (s.fetches i).hops.length ≤ policy.maxRedirects + 1 ∧
      (policy = .webhook → (s.fetches i).hops.length ≤ 1)) ∧
    (policy.appliesDenyList = true → ∀ i addresses t,
      (∃ ip ∈ addresses, isDeniedIp ip = true) →
      (fetching crates (GuardedClient.new policy)).step s (i, .resolve (some addresses)) t →
      (t.fetches i).stage = .refused .deniedAddress ∧ t.made = s.made ∧
      ∀ e u, ¬ (fetching crates (GuardedClient.new policy)).step t (i, e) u) ∧
    (∀ i text answer, (s.fetches i).stage = .idle →
      ((GuardedClient.new policy).validate crates text answer = .ok () ↔
        ∀ t tr, (fetching crates (GuardedClient.new policy)).Run s tr t →
          (∀ x ∈ tr, x.label.1 = i → x.label.2.FirstHop text answer) →
          ∀ refusal, (t.fetches i).stage ≠ .refused refusal)) := by
  have hs : s.Guarded crates (GuardedClient.new policy) :=
    @Fetches.guarded crates (GuardedClient.builder policy) s h
  refine ⟨fun hdeny c hc => ?_, fun c hc => ?_, fun i url hurl => ?_, fun i => ?_,
    fun hdeny i addresses t ⟨ip, hip, hdenied⟩ step => ?_, fun i text answer hidle => ?_⟩
  · rw [← new_refuses c.ip hdeny]
    exact (hs.made c hc).1
  · obtain ⟨_, host, hpermits, hliteral⟩ := hs.made c hc
    exact ⟨host, hpermits.hasHost, hliteral⟩
  · obtain ⟨host, hpermits⟩ := (hs.fetches i).permits url hurl
    refine ⟨host, { hpermits with literal := fun hdeny ip hip => ?_ }⟩
    rw [← new_refuses ip hdeny]
    exact hpermits.literal hdeny ip hip
  · refine ⟨(hs.fetches i).bounded, fun hp => ?_⟩
    subst hp
    exact (hs.fetches i).bounded
  · obtain ⟨hrefused, hmade⟩ := denied_answer hip ((new_refuses ip hdeny).trans hdenied) step
    exact ⟨hrefused, hmade, fun e u => refused_final hrefused u⟩
  · constructor
    · intro hok t tr hrun hhop refusal hrefused
      cases hok.symm.trans ((tells_run hrun hidle hhop).2 refusal hrefused)
    · intro hnone
      cases hvalid : (GuardedClient.new policy).validate crates text answer with
      | ok value => rfl
      | error refusal =>
        have hvalid : (GuardedClient.builder policy).build.validate crates text answer = _ := hvalid
        obtain ⟨t, tr, hrun, hhop, hrefused⟩ := (validate_eq_error hidle).mp hvalid
        exact absurd hrefused (hnone t tr hrun hhop refusal)

/-- A listed host's file, at one path or another. -/
def dump (path : String) : Url where
  scheme := "https"
  username := ""
  password := none
  host := some (.domain "export.example.com")
  port := none
  path := path

def dumpCrates : UrlCrates where
  parse text := if text = "https://export.example.com/dumps/a.zip" then some (dump "/dumps/a.zip")
    else none
  decode := some

def dumpPolicy : FetchPolicy :=
  .archiveFetch ⟨[⟨.domain "export.example.com", some ⟨["dumps"], true⟩⟩]⟩

/-- A listed host sends the fetch on, under the same prefix, over the connection it has. -/
theorem fetches_guarded_dump : ∃ s,
    (fetching dumpCrates (GuardedClient.new dumpPolicy)).Reachable s ∧
    (s.fetches 0).hops = [dump "/dumps/a.zip", dump "/dumps/b.zip"] ∧
    s.made = [⟨dump "/dumps/a.zip", .v4 (v4Addr 93 184 216 34)⟩] ∧
    ∀ c ∈ s.made, isDeniedIp c.ip = false := by
  let start : Fetches := ⟨[], fun _ => ⟨.idle, []⟩⟩
  let ip : IpAddr := .v4 (v4Addr 93 184 216 34)
  let c : Connection := ⟨dump "/dumps/a.zip", ip⟩
  have hexec : (exec (Fetches.step dumpCrates (GuardedClient.new dumpPolicy)) start
      [(0, .request "https://export.example.com/dumps/a.zip"), (0, .resolve (some [ip])),
        (0, .connect ip), (0, .send c), (0, .redirect (dump "/dumps/b.zip")), (0, .send c),
        (0, .respond)]).map (fun s => ((s.fetches 0).hops, s.made)) =
      some ([dump "/dumps/a.zip", dump "/dumps/b.zip"], [c]) := by decide +kernel
  obtain ⟨s, hs, hsame⟩ := Option.map_eq_some_iff.mp hexec
  obtain ⟨hhops, hmade⟩ := Prod.mk.inj hsame
  have hr : (fetching dumpCrates (GuardedClient.new dumpPolicy)).Reachable s :=
    Lts.Reachable.exec (fun _ _ _ _ h => h) _ hs (.start ⟨rfl, fun _ => rfl⟩)
  exact ⟨s, hr, hhops, hmade, (fetches_guarded dumpCrates dumpPolicy hr).1 rfl⟩

end Tronc.HttpClient
