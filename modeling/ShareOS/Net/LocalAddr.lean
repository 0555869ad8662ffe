import ShareOS.Net.SortIPs

/-!
# Net — local addresses

`extractHostPort`, `isLocalHost`, `sameLocalAddrs` and
`CheckLocalServerAddr`, over the parts of packages `net`, `net/url` and
`strconv` they call (`NetAddr`): parsing, host lookups and the host's
interface addresses are parameters, each one function, so a host has
one lookup answer in a run.

`sameLocalAddrs a b` holds when both addresses name this machine and the
same port. `sameLocalAddrs_eq_true_iff` says so through `hostLocal`, the
block the function repeats for each address, and from it
`sameLocalAddrs_symm_trans`: the relation is symmetric and transitive,
so on the addresses that name this machine it is an equivalence, which
is what comparing endpoints with it takes. `CheckLocalServerAddr`
accepts exactly the addresses whose port is a number from 1 to 65535
and whose host is empty or this machine
(`checkLocalServerAddr_eq_none_iff`).

`getAPIEndpoints` writes the URLs of the startup banner: for an address
without a host, one URL for each of the host's IPv4 addresses, ordered
by `sortIPs`. `getAPIEndpoints_localIP4` says each address appears
exactly once, in that order.
-/

namespace ShareOS

open ShareOS.Go

/-- `strings.Contains(s, substr)`. -/
def stringsContains (s substr : String) : Bool :=
  decide (substr.toList <:+: s.toList)

/-- What the address checks use of packages `net`, `net/url` and
`strconv`, over the type `ι` of `net.IP`s. -/
structure NetAddr (ι : Type) extends NetIP ι where
  /-- `url.Parse(rawurl)`: its `Scheme` and `Host`, or the error. -/
  urlParse : String → Except GoError (String × String)
  /-- `net.SplitHostPort(hostport)`. -/
  splitHostPort : String → Except GoError (String × String)
  /-- `net.LookupIP(host)`. -/
  lookupIP : String → Except GoError (List ι)
  /-- `net.InterfaceAddrs()`, each address's IP when it is an `*IPNet` or
  an `*IPAddr`. -/
  interfaceAddrs : Except GoError (List (Option ι))
  /-- `err.Error()`. -/
  errorText : GoError → String
  /-- `strconv.Atoi(s)`. -/
  atoi : String → Except GoError Int

namespace NetAddr

variable {ι : Type} (net : NetAddr ι)

/-- `mustGetLocalIP4()`, the value of `localIP4`: the `String()` of each
IPv4 address of the host's interfaces; none if they cannot be listed. -/
def mustGetLocalIP4 : List String :=
  match net.interfaceAddrs with
  | .error _ => []
  | .ok addrs => ((addrs.filterMap id).filter fun ip => (net.to4 ip).isSome).map net.ipString

/-- `getHostIP4(host)`: the `String()` of each IPv4 address `host` looks
up to. -/
def getHostIP4 (host : String) : Except GoError (List String) :=
  match net.lookupIP host with
  | .error err => .error err
  | .ok ips => .ok ((ips.filter fun ip => (net.to4 ip).isSome).map net.ipString)

/-- `isLocalHost(host)`: whether `host` looks up to one of `localIP4`. -/
def isLocalHost (host : String) : Except GoError Bool :=
  match net.getHostIP4 host with
  | .error err => .error err
  | .ok hostIPs => .ok (net.mustGetLocalIP4.any fun ip => decide (ip ∈ hostIPs))

/-- `extractHostPort(hostAddr)`: the host and port of `":9000"`,
`"localhost:9000"` or `"http://localhost:9000/"`, the port guessed from
the scheme when there is none. -/
def extractHostPort (hostAddr : String) : Except GoError (String × String) :=
  if hostAddr = "" then .error (.errorsNew "unable to process empty address")
  else
    let parsed : Except GoError (String × String) :=
      match net.urlParse hostAddr with
      | .error err =>
        if stringsContains (net.errorText err) "missing protocol scheme" then .ok ("", "")
        else .error err
      | .ok (scheme, host) => .ok (host, scheme)
    match parsed with
    | .error err => .error err
    | .ok (addr, scheme) =>
      let addr' := if addr = "" then hostAddr else addr
      let scheme' := if addr = "" then "http" else scheme
      match net.splitHostPort addr' with
      | .ok hostPort => .ok hostPort
      | .error err =>
        if !stringsContains (net.errorText err) "missing port in address" then .error err
        else if scheme' = "https" then .ok (addr', "443")
        else if scheme' = "http" then .ok (addr', "80")
        else .error (.errorsNew "unable to guess port from scheme")

/-- The block `sameLocalAddrs` runs for each address, also the test of
`CheckLocalServerAddr`: an empty host is this machine, any other is
asked of `isLocalHost`. -/
def hostLocal (host : String) : Except GoError Bool :=
  if host = "" then .ok true else net.isLocalHost host

/-- `sameLocalAddrs(addr1, addr2)`. -/
def sameLocalAddrs (addr1 addr2 : String) : Except GoError Bool :=
  match net.extractHostPort addr1, net.extractHostPort addr2 with
  | .error err, _ => .error err
  | .ok _, .error err => .error err
  | .ok (host1, port1), .ok (host2, port2) =>
    match net.hostLocal host1, net.hostLocal host2 with
    | .error err, _ => .error err
    | .ok _, .error err => .error err
    | .ok addr1Local, .ok addr2Local => .ok (addr1Local && addr2Local && decide (port1 = port2))

/-- Two addresses are the same local address when both extract, both
hosts are this machine, and the ports agree. -/
theorem sameLocalAddrs_eq_true_iff (addr1 addr2 : String) :
    net.sameLocalAddrs addr1 addr2 = .ok true ↔
      ∃ host1 host2 port, net.extractHostPort addr1 = .ok (host1, port) ∧
        net.extractHostPort addr2 = .ok (host2, port) ∧
        net.hostLocal host1 = .ok true ∧ net.hostLocal host2 = .ok true := by
  constructor
  · intro h
    unfold sameLocalAddrs at h
    split at h
    · cases h
    · cases h
    rename_i host1 port1 host2 port2 ha hb
    split at h
    · cases h
    · cases h
    rename_i l₁ l₂ hl₁ hl₂
    simp only [Except.ok.injEq, Bool.and_eq_true, decide_eq_true_eq] at h
    obtain ⟨⟨rfl, rfl⟩, rfl⟩ := h
    exact ⟨host1, host2, port1, ha, hb, hl₁, hl₂⟩
  · rintro ⟨host1, host2, port, ha, hb, hl₁, hl₂⟩
    simp [sameLocalAddrs, ha, hb, hl₁, hl₂]

/-- **`sameLocalAddrs` is a partial equivalence.** Whatever the parsers,
the lookups and the interfaces answer, two addresses are the same local
address exactly when both extract, both hosts are this machine and the
ports agree; so the relation is symmetric and transitive. -/
theorem sameLocalAddrs_symm_trans :
    (∀ a b, net.sameLocalAddrs a b = .ok true ↔
      ∃ host1 host2 port, net.extractHostPort a = .ok (host1, port) ∧
        net.extractHostPort b = .ok (host2, port) ∧
        net.hostLocal host1 = .ok true ∧ net.hostLocal host2 = .ok true) ∧
      (∀ a b, net.sameLocalAddrs a b = .ok true → net.sameLocalAddrs b a = .ok true) ∧
      ∀ a b c, net.sameLocalAddrs a b = .ok true → net.sameLocalAddrs b c = .ok true →
        net.sameLocalAddrs a c = .ok true := by
  refine ⟨net.sameLocalAddrs_eq_true_iff, ?_⟩
  simp only [sameLocalAddrs_eq_true_iff]
  refine ⟨fun a b ⟨h₁, h₂, p, ha, hb, hl₁, hl₂⟩ => ⟨h₂, h₁, p, hb, ha, hl₂, hl₁⟩, ?_⟩
  rintro a b c ⟨h₁, h₂, p, ha, hb, hl₁, -⟩ ⟨h₂', h₃, p', hb', hc, -, hl₃⟩
  rw [hb, Except.ok.injEq, Prod.mk.injEq] at hb'
  obtain ⟨-, rfl⟩ := hb'
  exact ⟨h₁, h₃, p, ha, hc, hl₁, hl₃⟩

/-- `CheckLocalServerAddr(serverAddr)`, `nil` as `none`. -/
def checkLocalServerAddr (serverAddr : String) : Option GoError :=
  match net.splitHostPort serverAddr with
  | .error err => some err
  | .ok (host, port) =>
    match net.atoi port with
    | .error _ => some (.errorsNew "invalid port number")
    | .ok p =>
      if p < 1 ∨ p > 65535 then some (.errorsNew "port number must be between 1 to 65535")
      else if host ≠ "" then
        match net.isLocalHost host with
        | .error err => some err
        | .ok false => some (.errorsNew "host in server address should be this server")
        | .ok true => none
      else none

/-- **What `CheckLocalServerAddr` accepts.** Exactly the addresses that
split into a host and a port, whose port `Atoi` reads as a number from 1
to 65535, and whose host is empty or this machine. -/
theorem checkLocalServerAddr_eq_none_iff (serverAddr : String) :
    net.checkLocalServerAddr serverAddr = none ↔
      ∃ host port p, net.splitHostPort serverAddr = .ok (host, port) ∧ net.atoi port = .ok p ∧
        1 ≤ p ∧ p ≤ 65535 ∧ net.hostLocal host = .ok true := by
  unfold checkLocalServerAddr
  rcases hs : net.splitHostPort serverAddr with e | ⟨host, port⟩
  · simp
  dsimp only
  rcases ha : net.atoi port with e | p
  · simp only [reduceCtorEq, false_iff]
    rintro ⟨_, _, _, ⟨⟩, hp, -⟩
    cases ha.symm.trans hp
  dsimp only
  by_cases hp : 1 ≤ p ∧ p ≤ 65535
  · rw [if_neg (by omega)]
    unfold hostLocal
    by_cases hh : host = ""
    · subst hh
      exact iff_of_true rfl ⟨"", port, p, rfl, ha, hp.1, hp.2, if_pos rfl⟩
    rw [if_pos hh]
    rcases hl : net.isLocalHost host with e | _ | _ <;> simp only [reduceCtorEq, false_iff]
    case neg.ok.true =>
      exact iff_of_true trivial ⟨host, port, p, rfl, ha, hp.1, hp.2, by rw [if_neg hh, hl]⟩
    all_goals
      rintro ⟨_, _, _, ⟨⟩, -, -, -, hlocal⟩
      rw [if_neg hh, hl] at hlocal
      cases hlocal
  · rw [if_pos (by omega)]
    simp only [reduceCtorEq, false_iff]
    rintro ⟨_, _, _, ⟨⟩, hp', h1, h2, -⟩
    rw [ha, Except.ok.injEq] at hp'
    exact hp (hp' ▸ ⟨h1, h2⟩)

/-! ## The startup banner -/

/-- `mustSplitHostPort(hostPort)`: the host and port of
`net.SplitHostPort`, its error only printed; with an error
`SplitHostPort` returns two empty strings. -/
def mustSplitHostPort (hostPort : String) : String × String :=
  match net.splitHostPort hostPort with
  | .ok hostPort => hostPort
  | .error _ => ("", "")

/-- `getAPIEndpoints(serverAddr)`, with `httpScheme` (not under `src/`)
as `scheme`, `localIP4.ToSlice()` as `localIP4` and
`sort.Sort(byLastOctetValue(…))` as `sortSort`. -/
def getAPIEndpoints (scheme : String)
    (sortSort : (ι → ι → Except GoError Bool) → List ι → Except GoError (List ι))
    (localIP4 : List String) (serverAddr : String) : Except GoError (List String) :=
  let host := (net.mustSplitHostPort serverAddr).1
  let port := (net.mustSplitHostPort serverAddr).2
  let ipList := if host = "" then sortIPs net.toNetIP sortSort localIP4 else .ok [host]
  ipList.map fun ipList => ipList.map fun ip => scheme ++ "://" ++ ip ++ ":" ++ port

/-- Strings that `String()` prints back from their own parse are the
`String()`s of their parses. -/
theorem filterMap_parseIP_map_ipString {l : List String}
    (hl : ∀ s ∈ l, ∃ a, net.parseIP s = some a ∧ net.ipString a = s) :
    (l.filterMap net.parseIP).map net.ipString = l := by
  induction l with
  | nil => rfl
  | cons s l ih =>
    obtain ⟨a, hp, hs⟩ := hl s (List.mem_cons_self s l)
    rw [List.filterMap_cons_some hp, List.map_cons, hs,
      ih fun t ht => hl t (List.mem_cons_of_mem s ht)]

/-- **The banner lists every local address once.** For a server address
without a host, when each entry of `localIP4` parses to an IPv4 address
that `String()` prints back as the entry, `getAPIEndpoints` returns one
URL `scheme://ip:port` for each entry, in `sortIPs`' order: a higher
last octet first, `127.0.0.1` last. -/
theorem getAPIEndpoints_localIP4 (scheme : String)
    (sortSort : (ι → ι → Except GoError Bool) → List ι → Except GoError (List ι))
    (hsort : SortContract (fun a => (net.to4 a).isSome) net.lessByLastOctet
      (sortSort net.lessByLastOctet))
    (localIP4 : List String)
    (hlocal : ∀ s ∈ localIP4, ∃ a, net.parseIP s = some a ∧ (net.to4 a).isSome ∧ net.ipString a = s)
    (serverAddr : String) (hhost : (net.mustSplitHostPort serverAddr).1 = "") :
    ∃ ips : List ι, net.getAPIEndpoints scheme sortSort localIP4 serverAddr =
        .ok (ips.map fun a => scheme ++ "://" ++ net.ipString a ++ ":" ++
          (net.mustSplitHostPort serverAddr).2) ∧
      (ips.map net.ipString).Perm localIP4 ∧
      ips.Pairwise fun a b => net.lastOctetKey b ≤ net.lastOctetKey a := by
  unfold getAPIEndpoints sortIPs
  dsimp only
  rw [if_pos hhost]
  split_ifs with h1
  · obtain ⟨s, rfl⟩ := List.length_eq_one.mp h1
    obtain ⟨a, -, -, rfl⟩ := hlocal s (List.mem_singleton_self s)
    exact ⟨[a], rfl, .refl _, List.pairwise_singleton _ _⟩
  have hnone : localIP4.filter (fun ip => (net.parseIP ip).isNone) = [] :=
    List.filter_eq_nil_iff.mpr fun s hs => by
      obtain ⟨a, hp, -⟩ := hlocal s hs
      simp [hp]
  have hround := net.filterMap_parseIP_map_ipString fun s hs => by
    obtain ⟨a, hp, -, hs'⟩ := hlocal s hs
    exact ⟨a, hp, hs'⟩
  obtain ⟨ips, hs, hperm, hpair⟩ := net.sortContract_lastOctetKey hsort fun a ha => by
    obtain ⟨s, hs, hp⟩ := List.mem_filterMap.mp ha
    obtain ⟨a', hp', h4, -⟩ := hlocal s hs
    exact Option.some_injective _ (hp.symm.trans hp') ▸ h4
  refine ⟨ips, by rw [hs, hnone]; simp [Except.map], ?_, hpair⟩
  exact (hperm.map net.ipString).trans (List.Perm.of_eq hround)

end NetAddr

/-- `bannerNet` serving `":9000"`, with nothing else to look up. -/
def bannerAddr : NetAddr UInt8 :=
  { bannerNet with
    urlParse := fun _ => .error (.errorsNew "missing protocol scheme")
    splitHostPort := fun s =>
      if s = ":9000" then .ok ("", "9000") else .error (.errorsNew "missing port in address")
    lookupIP := fun _ => .ok []
    interfaceAddrs := .ok [some 1, some 5]
    errorText := fun _ => ""
    atoi := fun _ => .ok 9000 }

/-- The banner of a server on `":9000"` of a host with the loopback and
`10.0.0.5`, sorted by insertion. -/
theorem getAPIEndpoints_localIP4_port_9000 :
    ∃ ips : List UInt8, bannerAddr.getAPIEndpoints "http" bannerSort ["127.0.0.1", "10.0.0.5"]
        ":9000" = .ok (ips.map fun a => "http" ++ "://" ++ bannerAddr.ipString a ++ ":" ++
          (bannerAddr.mustSplitHostPort ":9000").2) ∧
      (ips.map bannerAddr.ipString).Perm ["127.0.0.1", "10.0.0.5"] ∧
      ips.Pairwise fun a b => bannerAddr.lastOctetKey b ≤ bannerAddr.lastOctetKey a :=
  NetAddr.getAPIEndpoints_localIP4 bannerAddr "http" bannerSort
    bannerNet.insertionSort_lastOctetKey_sortContract ["127.0.0.1", "10.0.0.5"]
    (fun s hs => by
      simp only [List.mem_cons, List.mem_singleton, List.not_mem_nil, or_false] at hs
      rcases hs with rfl | rfl
      · exact ⟨1, by decide, rfl, by decide⟩
      · exact ⟨5, by decide, rfl, by decide⟩)
    ":9000" (by decide)

/-- The address first, the loopback last. -/
example : bannerAddr.getAPIEndpoints "http" bannerSort ["127.0.0.1", "10.0.0.5"] ":9000" =
    .ok ["http://10.0.0.5:9000", "http://127.0.0.1:9000"] := rfl

end ShareOS
