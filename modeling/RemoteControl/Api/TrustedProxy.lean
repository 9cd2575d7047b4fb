import Mathlib.Data.List.Basic

/-!
# The client's address behind a proxy

`trustedProxyHeaders` of `httpapi/server.go`, the outermost handler. For a request from one of the
configured proxies it reads the chain of `X-Forwarded-For` from the right and takes the first
address outside the configured ranges for the client's: the login limiter and the audit log see
that one.

A client can write any such header itself. What a proxy appends stands to the right of it, in the
same line or in a line of its own, so the address may depend only on the entries up to the first
one, from the right, that is not a proxy's (`upToBoundary`). The loop differs in two ways:

> `Header.Get` returns the first line, and an entry that is no address is passed over.

`adopted_iff` says for which requests this makes no difference.
-/

namespace RemoteControl.Api

open List

abbrev Text := List Char

/-- What is used of `net`, `net/netip` and `strings`. The port is not read by anyone. -/
structure Net where
  Addr : Type
  /-- The ranges of addresses. -/
  Range : Type
  parseAddr : Text → Option Addr
  unmap : Addr → Addr
  contains : Range → Addr → Bool
  string : Addr → Text
  /-- The host of `host:port`. -/
  splitHostPort : Text → Option Text
  joinHostPort : Text → Text → Text
  trimSpace : Text → Text
  unmap_unmap : ∀ a, unmap (unmap a) = unmap a
  joinHostPort_inj : ∀ a b, joinHostPort (string a) ['0'] = joinHostPort (string b) ['0'] → a = b
  /-- What is read back from a joined address is no other address. -/
  parseAddr_join : ∀ a b,
    parseAddr ((splitHostPort (joinHostPort (string a) ['0'])).getD (joinHostPort (string a) ['0']))
      = some b → b = a

/-- The fields of a request that the handler uses; a header is the list of its lines. -/
structure Request where
  remoteAddr : Text
  forwardedFor : List Text
  realIp : List Text
  forwardedProto : List Text
deriving DecidableEq

variable (net : Net) (trusted : List net.Range) {a : net.Addr} {entry line : Text}
  {l lines : List Text} {request : Request}

def clientIP (request : Request) : Text :=
  (net.splitHostPort request.remoteAddr).getD request.remoteAddr

def prefixContains (address : net.Addr) : Bool := trusted.any fun r => net.contains r address

def entryAddr (entry : Text) : Option net.Addr :=
  (net.parseAddr (net.trimSpace entry)).map net.unmap

/-- The loop; the chain is given from the right to the left. -/
def adopt : List Text → Option net.Addr
  | [] => none
  | entry :: rest =>
    match entryAddr net entry with
    | none => adopt rest
    | some candidate => if prefixContains net trusted candidate then adopt rest else some candidate

/-- `Header.Get`. -/
def headerGet (lines : List Text) : Text := lines.headD []

def trustedProxyHeaders (request : Request) : Request :=
  let untrusted := { request with forwardedFor := [], realIp := [], forwardedProto := [] }
  match net.parseAddr (clientIP net request) with
  | none => untrusted
  | some peer =>
    if prefixContains net trusted (net.unmap peer) then
      let chain := (headerGet request.forwardedFor).splitOn ','
      match adopt net trusted chain.reverse with
      | some candidate =>
        { request with remoteAddr := net.joinHostPort (net.string candidate) ['0'] }
      | none => request
    else untrusted

/-! ## What the address may depend on -/

def FromProxy (request : Request) : Prop :=
  ∃ peer, net.parseAddr (clientIP net request) = some peer ∧
    prefixContains net trusted (net.unmap peer) = true

def entries (lines : List Text) : List Text := lines.flatMap (·.splitOn ',')

/-- The entry is a trusted proxy's address. -/
def isProxy (entry : Text) : Bool := (entryAddr net entry).any (prefixContains net trusted)

/-- From the right up to the first entry that is not a proxy's, that one included. -/
def upToBoundary : List Text → List Text
  | [] => []
  | entry :: rest => if isProxy net trusted entry then entry :: upToBoundary rest else [entry]

/-- The entries that count, from the left to the right. -/
def relevant (lines : List Text) : List Text :=
  (upToBoundary net trusted (entries lines).reverse).reverse

/-- The header with these entries and no others. -/
def onlyEntries (l : List Text) : List Text := if l = [] then [] else [List.intercalate [','] l]

/-- The address is the one that the entries that count give by themselves. -/
def Undisturbed (request : Request) : Prop :=
  (trustedProxyHeaders net trusted request).remoteAddr
    = (trustedProxyHeaders net trusted
        { request with
          forwardedFor := onlyEntries (relevant net trusted request.forwardedFor) }).remoteAddr

/-- The entry's address, if it is not in the proxies' ranges. -/
def outside (entry : Text) : Option net.Addr :=
  (entryAddr net entry).filter fun a => !prefixContains net trusted a

/-- The first entry from the right that is not a proxy's. -/
def boundary (lines : List Text) : Option Text :=
  (entries lines).reverse.find? fun entry => !isProxy net trusted entry

/-- The last address in the first line that is outside the ranges is the boundary's, and there is
none if the boundary is no address. -/
def FirstLineAgrees (lines : List Text) : Prop :=
  ∀ entry, boundary net trusted lines = some entry →
    (((headerGet lines).splitOn ',').filterMap (outside net trusted)).getLast?
      = entryAddr net entry

variable {net trusted}

/-! ## The loop -/

theorem adopt_eq_head (l : List Text) :
    adopt net trusted l = (l.filterMap (outside net trusted)).head? := by
  induction l with
  | nil => rfl
  | cons entry rest ih =>
    rw [adopt]
    cases hentry : entryAddr net entry with
    | none =>
      have hnone : outside net trusted entry = none := by rw [outside, hentry]; rfl
      rw [filterMap_cons_none hnone, ← ih]
    | some a =>
      by_cases ha : prefixContains net trusted a = true
      · have hnone : outside net trusted entry = none := by simp [outside, hentry, ha]
        rw [filterMap_cons_none hnone, ← ih]
        exact if_pos ha
      · have hsome : outside net trusted entry = some a := by simp [outside, hentry, ha]
        rw [filterMap_cons_some hsome]
        exact if_neg ha

theorem adopt_reverse (chain : List Text) :
    adopt net trusted chain.reverse = (chain.filterMap (outside net trusted)).getLast? := by
  rw [adopt_eq_head, filterMap_reverse, List.head?_reverse]

theorem outside_of_isProxy (h : isProxy net trusted entry = true) :
    outside net trusted entry = none := by
  unfold isProxy at h
  cases hentry : entryAddr net entry with
  | none => rw [outside, hentry]; rfl
  | some a =>
    rw [hentry] at h
    have ha : prefixContains net trusted a = true := h
    simp [outside, hentry, ha]

theorem outside_of_not_isProxy (h : isProxy net trusted entry = false) :
    outside net trusted entry = entryAddr net entry := by
  unfold isProxy at h
  cases hentry : entryAddr net entry with
  | none => rw [outside, hentry]; rfl
  | some a =>
    rw [hentry] at h
    have ha : prefixContains net trusted a = false := h
    simp [outside, hentry, ha]

theorem adopt_cons_proxy {rest : List Text} (h : isProxy net trusted entry = true) :
    adopt net trusted (entry :: rest) = adopt net trusted rest := by
  rw [adopt_eq_head, filterMap_cons_none (outside_of_isProxy h), ← adopt_eq_head]

theorem adopt_singleton (h : isProxy net trusted entry = false) :
    adopt net trusted [entry] = entryAddr net entry := by
  rw [adopt_eq_head, ← outside_of_not_isProxy h, filterMap_cons]
  cases outside net trusted entry <;> rfl

/-- A candidate is outside the ranges, and is not mapped any further. -/
theorem candidate_of_adopt (h : adopt net trusted l = some a) :
    prefixContains net trusted a = false ∧ net.unmap a = a := by
  rw [adopt_eq_head] at h
  obtain ⟨entry, -, hentry⟩ := mem_filterMap.mp (mem_of_head? h)
  obtain ⟨haddr, houtside⟩ := Option.filter_eq_some_iff.mp hentry
  obtain ⟨raw, -, rfl⟩ := Option.map_eq_some_iff.mp haddr
  exact ⟨by simpa using houtside, net.unmap_unmap raw⟩

/-! ## The entries that count -/

/-- Alone they give the boundary's address. -/
theorem adopt_upToBoundary (l : List Text) :
    adopt net trusted (upToBoundary net trusted l)
      = (l.find? fun entry => !isProxy net trusted entry).bind (entryAddr net) := by
  induction l with
  | nil => rfl
  | cons entry rest ih =>
    rw [upToBoundary]
    by_cases h : isProxy net trusted entry = true
    · rw [if_pos h, adopt_cons_proxy h, ih, List.find?_cons_of_neg (by simp [h])]
    · have h' : isProxy net trusted entry = false := by simpa using h
      rw [if_neg h, adopt_singleton h', List.find?_cons_of_pos (by simp [h'])]
      rfl

/-- Where every entry is an address, the loop stops at the boundary. -/
theorem adopt_of_addresses (h : ∀ entry ∈ l, (entryAddr net entry).isSome) :
    adopt net trusted l
      = (l.find? fun entry => !isProxy net trusted entry).bind (entryAddr net) := by
  induction l with
  | nil => rfl
  | cons entry rest ih =>
    by_cases hproxy : isProxy net trusted entry = true
    · rw [adopt_cons_proxy hproxy, List.find?_cons_of_neg (by simp [hproxy])]
      exact ih fun other hother => h other (mem_cons_of_mem _ hother)
    · have hfalse : isProxy net trusted entry = false := by simpa using hproxy
      obtain ⟨a, ha⟩ := Option.isSome_iff_exists.mp (h entry mem_cons_self)
      have houtside : outside net trusted entry = some a := by
        rw [outside_of_not_isProxy hfalse, ha]
      rw [adopt_eq_head, filterMap_cons_some houtside, List.find?_cons_of_pos (by simp [hfalse])]
      exact ha.symm

theorem upToBoundary_subset (h : entry ∈ upToBoundary net trusted l) : entry ∈ l := by
  induction l with
  | nil => exact h
  | cons first rest ih =>
    rw [upToBoundary] at h
    split at h
    · rcases mem_cons.mp h with rfl | h
      · exact mem_cons_self
      · exact mem_cons_of_mem _ (ih h)
    · exact mem_singleton.mp h ▸ mem_cons_self

theorem upToBoundary_eq_nil (h : upToBoundary net trusted l = []) : l = [] := by
  cases l with
  | nil => rfl
  | cons entry rest =>
    rw [upToBoundary] at h
    split at h <;> cases h

theorem comma_notMem_splitOn (h : entry ∈ line.splitOn ',') : ',' ∉ entry := by
  induction line generalizing entry with
  | nil =>
    rw [splitOn_nil] at h
    exact mem_singleton.mp h ▸ not_mem_nil
  | cons c line ih =>
    rw [splitOn_cons_eq_if_modifyHead] at h
    split at h
    · rcases mem_cons.mp h with rfl | h
      · exact not_mem_nil
      · exact ih h
    · next hc =>
      cases hrest : line.splitOn ',' with
      | nil => exact absurd hrest (splitOn_ne_nil _ _)
      | cons first rest =>
        rw [hrest] at h ih
        rcases mem_cons.mp h with rfl | h
        · intro hmem
          rcases mem_cons.mp hmem with hcomma | hmem
          · exact hc (by rw [← hcomma]; rfl)
          · exact ih mem_cons_self hmem
        · exact ih (mem_cons_of_mem _ h)

/-- A header made of entries is read as these entries. -/
theorem splitOn_onlyEntries (h : lines ≠ []) :
    (headerGet (onlyEntries (relevant net trusted lines))).splitOn ','
      = relevant net trusted lines := by
  have hne : relevant net trusted lines ≠ [] := by
    intro hnil
    have hentries : entries lines = [] :=
      reverse_eq_nil_iff.mp (upToBoundary_eq_nil (reverse_eq_nil_iff.mp hnil))
    cases lines with
    | nil => exact h rfl
    | cons line rest =>
      rw [entries, flatMap_cons] at hentries
      exact splitOn_ne_nil _ _ (append_eq_nil_iff.mp hentries).1
  rw [onlyEntries, if_neg hne]
  refine splitOn_intercalate ',' ?_ hne
  intro entry hentry
  have hmem := mem_reverse.mp (upToBoundary_subset (mem_reverse.mp hentry))
  obtain ⟨line, -, hline⟩ := mem_flatMap.mp hmem
  exact comma_notMem_splitOn hline

/-! ## The handler -/

theorem handled_of_not_fromProxy (h : ¬ FromProxy net trusted request) :
    trustedProxyHeaders net trusted request
      = { request with forwardedFor := [], realIp := [], forwardedProto := [] } := by
  unfold trustedProxyHeaders
  dsimp only
  split
  · rfl
  · next peer hpeer =>
    exact if_neg fun htrusted => h ⟨peer, hpeer, htrusted⟩

section

variable (h : FromProxy net trusted request)

include h

theorem handled_of_fromProxy :
    (trustedProxyHeaders net trusted request).remoteAddr
      = (adopt net trusted ((headerGet request.forwardedFor).splitOn ',').reverse).elim
          request.remoteAddr fun a => net.joinHostPort (net.string a) ['0'] := by
  obtain ⟨peer, hpeer, htrusted⟩ := h
  unfold trustedProxyHeaders
  dsimp only
  rw [hpeer]
  dsimp only
  rw [if_pos htrusted]
  cases adopt net trusted ((headerGet request.forwardedFor).splitOn ',').reverse <;> rfl

/-- No candidate is the proxy itself, so the address tells which candidate was adopted. -/
theorem joined_ne_remoteAddr (ha : adopt net trusted l = some a) :
    net.joinHostPort (net.string a) ['0'] ≠ request.remoteAddr := by
  intro heq
  obtain ⟨peer, hpeer, htrusted⟩ := h
  obtain ⟨houtside, hunmapped⟩ := candidate_of_adopt ha
  rw [clientIP, ← heq] at hpeer
  rw [net.parseAddr_join a peer hpeer, hunmapped, houtside] at htrusted
  cases htrusted

theorem remoteAddr_eq_iff (l l' : List Text) :
    (adopt net trusted l).elim request.remoteAddr (fun a => net.joinHostPort (net.string a) ['0'])
        = (adopt net trusted l').elim request.remoteAddr
            (fun a => net.joinHostPort (net.string a) ['0']) ↔
      adopt net trusted l = adopt net trusted l' := by
  refine ⟨fun heq => ?_, fun heq => by rw [heq]⟩
  cases hl : adopt net trusted l with
  | none =>
    cases hl' : adopt net trusted l' with
    | none => rfl
    | some b =>
      rw [hl, hl'] at heq
      exact absurd heq.symm (joined_ne_remoteAddr h hl')
  | some a =>
    cases hl' : adopt net trusted l' with
    | none =>
      rw [hl, hl'] at heq
      exact absurd heq (joined_ne_remoteAddr h hl)
    | some b =>
      rw [hl, hl'] at heq
      rw [net.joinHostPort_inj a b heq]

/-! ## When the rest makes no difference -/

omit h in
/-- Without a boundary every entry is a proxy's, in the first line as well. -/
theorem filterMap_outside_eq_nil (h : boundary net trusted lines = none) :
    ((headerGet lines).splitOn ',').filterMap (outside net trusted) = [] ∨ lines = [] := by
  cases lines with
  | nil => exact .inr rfl
  | cons line rest =>
    refine .inl (filterMap_eq_nil_iff.mpr fun entry hentry => outside_of_isProxy ?_)
    have hmem : entry ∈ (entries (line :: rest)).reverse :=
      mem_reverse.mpr (mem_flatMap.mpr ⟨line, mem_cons_self, hentry⟩)
    simpa using List.find?_eq_none.mp h entry hmem

theorem undisturbed_iff :
    Undisturbed net trusted request ↔ FirstLineAgrees net trusted request.forwardedFor := by
  by_cases hlines : request.forwardedFor = []
  · -- no header: there is nothing to compare
    have hsame : onlyEntries (relevant net trusted request.forwardedFor)
        = request.forwardedFor := by
      rw [hlines]
      rfl
    refine ⟨fun _ entry hentry => ?_, fun _ => by rw [Undisturbed, hsame]⟩
    rw [hlines] at hentry
    cases hentry
  · have honly : FromProxy net trusted
        { request with
          forwardedFor := onlyEntries (relevant net trusted request.forwardedFor) } := h
    have hrelevant : (relevant net trusted request.forwardedFor).reverse
        = upToBoundary net trusted (entries request.forwardedFor).reverse :=
      reverse_reverse _
    rw [Undisturbed, handled_of_fromProxy h, handled_of_fromProxy honly, remoteAddr_eq_iff h]
    dsimp only
    rw [splitOn_onlyEntries hlines, hrelevant, adopt_reverse, adopt_upToBoundary]
    unfold FirstLineAgrees
    cases hboundary : boundary net trusted request.forwardedFor with
    | none =>
      refine ⟨nofun, fun _ => ?_⟩
      rw [(filterMap_outside_eq_nil hboundary).resolve_right hlines]
      show none = (boundary net trusted request.forwardedFor).bind (entryAddr net)
      rw [hboundary]
      rfl
    | some entry =>
      show _ = (boundary net trusted request.forwardedFor).bind (entryAddr net) ↔ _
      rw [hboundary]
      refine ⟨fun heq other hother => ?_, fun heq => heq entry rfl⟩
      cases hother
      exact heq

/-- One line in which every entry is an address: the case of a proxy that appends to the line. -/
theorem undisturbed_of_addresses (hline : request.forwardedFor = [line])
    (hentries : ∀ entry ∈ line.splitOn ',', (entryAddr net entry).isSome) :
    Undisturbed net trusted request := by
  rw [undisturbed_iff h, hline]
  intro entry hboundary
  have hreverse : ∀ entry ∈ (line.splitOn ',').reverse, (entryAddr net entry).isSome :=
    fun entry hentry => hentries entry (mem_reverse.mp hentry)
  have hall : entries [line] = line.splitOn ',' := flatMap_singleton ..
  rw [boundary, hall] at hboundary
  show (((line.splitOn ',')).filterMap (outside net trusted)).getLast? = entryAddr net entry
  rw [← adopt_reverse, adopt_of_addresses hreverse, hboundary]
  rfl

end

/-- Another peer keeps its address, and what it wrote into the headers is dropped. A request from a
proxy gets the address that the entries that count give if and only if the first line's last address
outside the ranges is the boundary's. -/
theorem adopted_iff (net : Net) (trusted : List net.Range) (request : Request) :
    (¬ FromProxy net trusted request →
      trustedProxyHeaders net trusted request
        = { remoteAddr := request.remoteAddr, forwardedFor := [], realIp := [],
            forwardedProto := [] }) ∧
    (FromProxy net trusted request →
      (Undisturbed net trusted request ↔
        FirstLineAgrees net trusted request.forwardedFor)) :=
  ⟨handled_of_not_fromProxy, undisturbed_iff⟩

/-! ### Three addresses

A proxy, a client, and an address that the client makes up. -/

inductive Host
  | proxy
  | client
  | forged
deriving DecidableEq

def Host.text : Host → Text
  | .proxy => "10.0.0.2".toList
  | .client => "198.51.100.7".toList
  | .forged => "203.0.113.9".toList

/-- The library, for these three; the proxies' only range is the proxy. -/
def threeHosts : Net where
  Addr := Host
  Range := Unit
  parseAddr text := [Host.proxy, .client, .forged].find? fun host => host.text = text
  unmap := id
  contains _ host := host = .proxy
  string := Host.text
  splitHostPort text := match text.splitOn ':' with
    | [host, _] => some host
    | _ => none
  joinHostPort host port := host ++ ':' :: port
  trimSpace text := text.filter (· ≠ ' ')
  unmap_unmap _ := rfl
  joinHostPort_inj a b := by cases a <;> cases b <;> decide
  parseAddr_join a b := by cases a <;> cases b <;> decide

instance : DecidableEq threeHosts.Addr := inferInstanceAs (DecidableEq Host)

/-- A request that the proxy passes on. -/
def forwarded (lines : List String) : Request where
  remoteAddr := "10.0.0.2:49152".toList
  forwardedFor := lines.map String.toList
  realIp := []
  forwardedProto := []

/-- The proxy appends the client's address in a line of its own. The client's line is read, and
the client is taken for whomever it names there. An entry that is no address is passed over with
the same effect. -/
theorem forged_adopted :
    FromProxy threeHosts [()] (forwarded ["203.0.113.9", "198.51.100.7"]) ∧
      relevant threeHosts [()] (forwarded ["203.0.113.9", "198.51.100.7"]).forwardedFor
        = ["198.51.100.7".toList] ∧
      clientIP threeHosts
          (trustedProxyHeaders threeHosts [()] (forwarded ["203.0.113.9", "198.51.100.7"]))
        = "203.0.113.9".toList ∧
      ¬ Undisturbed threeHosts [()] (forwarded ["203.0.113.9", "198.51.100.7"]) ∧
      relevant threeHosts [()] (forwarded ["203.0.113.9, unknown"]).forwardedFor
        = [" unknown".toList] ∧
      clientIP threeHosts (trustedProxyHeaders threeHosts [()] (forwarded ["203.0.113.9, unknown"]))
        = "203.0.113.9".toList ∧
      ¬ Undisturbed threeHosts [()] (forwarded ["203.0.113.9, unknown"]) := by
  unfold Undisturbed
  refine ⟨⟨.proxy, ?_, ?_⟩, ?_, ?_, ?_, ?_, ?_, ?_⟩ <;> decide +kernel

/-- In one line the made-up address stands left of the client's, and is not seen. -/
theorem adopted_iff_appended :
    FromProxy threeHosts [()] (forwarded ["203.0.113.9, 198.51.100.7, 10.0.0.2"]) ∧
      Undisturbed threeHosts [()] (forwarded ["203.0.113.9, 198.51.100.7, 10.0.0.2"]) := by
  have hproxy : FromProxy threeHosts [()] (forwarded ["203.0.113.9, 198.51.100.7, 10.0.0.2"]) :=
    ⟨.proxy, by decide +kernel, by decide +kernel⟩
  refine ⟨hproxy, ((adopted_iff threeHosts [()] _).2 hproxy).mpr ?_⟩
  intro entry hentry
  have hboundary : boundary threeHosts [()]
      (forwarded ["203.0.113.9, 198.51.100.7, 10.0.0.2"]).forwardedFor
        = some " 198.51.100.7".toList := by decide +kernel
  obtain rfl := Option.some.inj (hboundary.symm.trans hentry)
  decide +kernel

theorem appended_line_undisturbed :
    Undisturbed threeHosts [()] (forwarded ["203.0.113.9, 198.51.100.7"]) :=
  undisturbed_of_addresses ⟨.proxy, by decide +kernel, by decide +kernel⟩ rfl (by decide +kernel)

end RemoteControl.Api
