import WebhookInbox.Ingest.Receiver

/-!
# The address behind a proxy

A proxy appends the address of its peer to what the client claims, to the last line of
the header or as a line of its own. `client_key` reads the first line that arrives, so the
address counts only if the proxy wrote to that one.
-/

namespace WebhookInbox.Receiver

open Library

/-- The header that a proxy appends to. -/
def forwardedFor : Str := lit "x-forwarded-for"

/-- The lines of a header, in order. -/
def Request.lines (request : Request) (name : Str) : List Str :=
  (request.headers.filter (fun header => decide (header.1 = name))).map Prod.snd

/-- What can stand as one element of the header. -/
structure Address (address : Str) : Prop where
  nonempty : address ≠ []
  undivided : 0x2C ∉ address
  trimmed : Text.strip address = address

/-- How a proxy appends an address. -/
inductive Proxy where
  | extendsLast (padding : Str) (blank : ∀ point ∈ padding, point = 0x20 ∨ point = 0x09)
  | addsLine

/-- The lines that leave the proxy. -/
def Proxy.forward : Proxy → List Str → Str → List Str
  | .extendsLast padding _, lines, address =>
      match lines.getLast? with
      | none => [address]
      | some last => lines.dropLast ++ [last ++ 0x2C :: (padding ++ address)]
  | .addsLine, lines, address => lines ++ [address]

/-- The proxy writes to the first line. -/
def Proxy.Leads : Proxy → List Str → Prop
  | .extendsLast _ _, lines => lines.length ≤ 1
  | .addsLine, lines => lines = []

/-! ## What is read -/

/-- A header is read from its first line. -/
theorem header_eq_head (request : Request) (name : Str) :
    request.header name = (request.lines name).head? := by
  rw [Request.header, Dict.get, Request.lines, List.head?_map, List.head?_filter]

section
variable {config : RateLimitConfig}

/-- The key is the last element of the first line, without blanks around it. -/
theorem clientKey_first (trusted : config.trustForwardedFor = true) {request : Request}
    {first : Str} {rest : List Str}
    (arrived : request.lines forwardedFor = first :: rest) (nonempty : first ≠ []) :
    clientKey request config = Text.strip ((Forms.split 0x2C first).getLastD []) := by
  have read : request.header (lit "x-forwarded-for") = some first := by
    rw [header_eq_head, ← forwardedFor, arrived, List.head?_cons]
  simp only [clientKey, trusted, ↓reduceIte, read, Option.getD_some, ne_eq, nonempty,
    not_false_eq_true]

/-- Only the first line and the peer matter. -/
theorem clientKey_congr {request other : Request}
    (same : (request.lines forwardedFor).head? = (other.lines forwardedFor).head?)
    (peer : request.peer = other.peer) : clientKey request config = clientKey other config := by
  have read : request.header (lit "x-forwarded-for") = other.header (lit "x-forwarded-for") := by
    rw [header_eq_head, header_eq_head]
    exact same
  simp only [clientKey, read, peer]

end

/-! ## What a proxy writes -/

/-- An address that stands alone is the only element. -/
theorem lastElement_alone {address : Str} (valid : Address address) :
    Text.strip ((Forms.split 0x2C address).getLastD []) = address := by
  rw [Forms.split_of_not_mem valid.undivided]
  exact valid.trimmed

/-- An address after a comma and blanks is the last element. -/
theorem lastElement_appended {address padding : Str} (valid : Address address)
    (blank : ∀ point ∈ padding, point = 0x20 ∨ point = 0x09) (claimed : Str) :
    Text.strip ((Forms.split 0x2C (claimed ++ 0x2C :: (padding ++ address))).getLastD []) =
      address := by
  have undivided : 0x2C ∉ padding ++ address := by
    intro member
    cases List.mem_append.mp member with
    | inl inPadding => exact absurd (blank _ inPadding) (by decide)
    | inr inAddress => exact valid.undivided inAddress
  have spaces : ∀ point ∈ padding, Text.isSpace point = true := by
    intro point member
    cases blank point member with
    | inl space => rw [space]; rfl
    | inr tab => rw [tab]; rfl
  have trimmed : Text.strip (padding ++ address) = Text.strip address := by
    rw [Text.strip, Text.stripBy, List.dropWhile_append_of_pos spaces]
    rfl
  rw [Forms.split_append_cons, Forms.split_of_not_mem undivided, List.getLastD_concat, trimmed,
    valid.trimmed]

/-- A proxy that leads leaves one line, which ends in the address. -/
theorem forward_leads {proxy : Proxy} {lines : List Str} (leads : proxy.Leads lines)
    {address : Str} (valid : Address address) :
    ∃ line, proxy.forward lines address = [line] ∧ line ≠ [] ∧
      Text.strip ((Forms.split 0x2C line).getLastD []) = address := by
  have alone := lastElement_alone valid
  cases proxy with
  | addsLine =>
    obtain rfl : lines = [] := leads
    exact ⟨address, rfl, valid.nonempty, alone⟩
  | extendsLast padding blank =>
    cases lines with
    | nil => exact ⟨address, rfl, valid.nonempty, alone⟩
    | cons claimed rest =>
      have short : rest.length = 0 := Nat.le_zero.mp (Nat.le_of_succ_le_succ leads)
      obtain rfl : rest = [] := List.length_eq_zero_iff.mp short
      exact ⟨_, rfl, List.append_ne_nil_of_right_ne_nil _ (List.cons_ne_nil _ _),
        lastElement_appended valid blank claimed⟩

/-- Otherwise the first line is the client's. -/
theorem forward_head {proxy : Proxy} {lines : List Str} (behind : ¬ proxy.Leads lines)
    (address : Str) : (proxy.forward lines address).head? = lines.head? := by
  cases proxy with
  | addsLine =>
    cases lines with
    | nil => exact absurd rfl behind
    | cons first rest => rfl
  | extendsLast padding blank =>
    cases lines with
    | nil => exact absurd (Nat.zero_le 1) behind
    | cons first rest =>
      cases rest with
      | nil => exact absurd (Nat.le_refl 1) behind
      | cons second others =>
        simp only [Proxy.forward, List.getLast?_eq_some_getLast (List.cons_ne_nil _ _),
          List.dropLast_cons_cons, List.cons_append, List.head?_cons]

/-- The lines that leave the proxy are as plain as those that reached it. -/
theorem forward_latin1 (proxy : Proxy) {lines : List Str} (latin : ∀ line ∈ lines, Latin1 line)
    {address : Str} (plain : Latin1 address) :
    ∀ line ∈ proxy.forward lines address, Latin1 line := by
  cases proxy with
  | addsLine =>
    intro line member
    cases List.mem_append.mp member with
    | inl claimed => exact latin line claimed
    | inr written => exact List.mem_singleton.mp written ▸ plain
  | extendsLast padding blank =>
    intro line member
    rw [Proxy.forward] at member
    split at member
    · exact List.mem_singleton.mp member ▸ plain
    · next last ends =>
      cases List.mem_append.mp member with
      | inl claimed => exact latin line (List.mem_of_mem_dropLast claimed)
      | inr written =>
        obtain rfl := List.mem_singleton.mp written
        intro point within
        rcases List.mem_append.mp within with inLast | inElement
        · exact latin last (List.mem_of_getLast? ends) point inLast
        · rcases List.mem_cons.mp inElement with rfl | inElement
          · decide
          · cases List.mem_append.mp inElement with
            | inl inPadding =>
              cases blank point inPadding with
              | inl space => rw [space]; decide
              | inr tab => rw [tab]; decide
            | inr inAddress => exact plain point inAddress

/-! ## Whose address counts -/

/-- The address of the proxy. -/
def proxyPeer : Str := lit "10.0.0.1"

/-- A request of the proxy with these lines. -/
def arriving (lines : List Str) (latin : ∀ line ∈ lines, Latin1 line) : Request where
  path := lit "github"
  method := lit "POST"
  headers := lines.map (fun line => (forwardedFor, line))
  queryString := []
  urlQuery := []
  chunks := []
  peer := some proxyPeer
  headersLatin1 := by
    intro header member
    obtain ⟨line, given, rfl⟩ := List.mem_map.mp member
    exact ⟨(by decide : Latin1 forwardedFor), latin line given⟩
  queryAscii := List.forall_mem_nil _
  peerScalar := by
    rintro host ⟨⟩
    decide
  measurable := Nat.two_pow_pos 63

theorem arriving_lines (lines : List Str) (latin : ∀ line ∈ lines, Latin1 line) :
    (arriving lines latin).lines forwardedFor = lines := by
  rw [Request.lines, arriving, List.filter_eq_self.mpr ?_, List.map_map]
  · exact List.map_id lines
  · intro header member
    obtain ⟨line, -, rfl⟩ := List.mem_map.mp member
    exact decide_eq_true rfl

theorem arriving_peer (lines : List Str) (latin : ∀ line ∈ lines, Latin1 line) :
    (arriving lines latin).peer = some proxyPeer := rfl

/-- The header is trusted. -/
def trusting : RateLimitConfig := { trustForwardedFor := true }

/-- Two addresses that a proxy may write. -/
def firstPeer : Str := lit "192.0.2.1"

def secondPeer : Str := lit "192.0.2.2"

theorem firstPeer_address : Address firstPeer := ⟨by decide, by decide, by decide⟩

theorem secondPeer_address : Address secondPeer := ⟨by decide, by decide, by decide⟩

section
variable {config : RateLimitConfig} {proxy : Proxy} {lines : List Str}

/-- If the proxy writes to the first line, what it appends is the key. -/
theorem clientKey_leads (trusted : config.trustForwardedFor = true) (leads : proxy.Leads lines)
    {address : Str} (valid : Address address) {request : Request}
    (arrived : request.lines forwardedFor = proxy.forward lines address) :
    clientKey request config = address := by
  obtain ⟨line, single, nonempty, last⟩ := forward_leads leads valid
  rw [clientKey_first trusted (arrived.trans single) nonempty, last]

/-- Otherwise there are requests with one key, though the proxy appended different addresses. -/
theorem clientKey_behind (latin : ∀ line ∈ lines, Latin1 line) (behind : ¬ proxy.Leads lines) :
    ∃ request other : Request,
      request.lines forwardedFor = proxy.forward lines firstPeer ∧
      other.lines forwardedFor = proxy.forward lines secondPeer ∧
      request.peer = some proxyPeer ∧ other.peer = some proxyPeer ∧
      clientKey request config = clientKey other config := by
  have latinFirst := forward_latin1 proxy latin (by decide : Latin1 firstPeer)
  have latinSecond := forward_latin1 proxy latin (by decide : Latin1 secondPeer)
  refine ⟨arriving _ latinFirst, arriving _ latinSecond, arriving_lines _ _, arriving_lines _ _,
    arriving_peer _ _, arriving_peer _ _, clientKey_congr ?_ ?_⟩
  · rw [arriving_lines, arriving_lines, forward_head behind, forward_head behind]
  · rw [arriving_peer, arriving_peer]

/-- A client that claims nothing leaves the first line to the proxy. -/
theorem leads_nil (proxy : Proxy) : proxy.Leads [] := by
  cases proxy with
  | extendsLast padding blank => exact Nat.zero_le 1
  | addsLine => rfl

end

/-- What the proxy appends is the key, and a client shares its budget with one that claims
nothing, exactly if the proxy writes to the first line. -/
theorem clientKey_forwarded_iff {config : RateLimitConfig}
    (trusted : config.trustForwardedFor = true) (proxy : Proxy) (lines : List Str)
    (latin : ∀ line ∈ lines, Latin1 line) :
    ((∀ address, Address address → ∀ request : Request,
        request.lines forwardedFor = proxy.forward lines address →
        clientKey request config = address) ↔ proxy.Leads lines) ∧
      ((∀ address, Address address → ∀ request plain : Request,
        request.lines forwardedFor = proxy.forward lines address →
        plain.lines forwardedFor = proxy.forward [] address → request.peer = plain.peer →
        clientKey request config = clientKey plain config) ↔ proxy.Leads lines) := by
  have apart : firstPeer ≠ secondPeer := by decide
  refine ⟨⟨?_, ?_⟩, ⟨?_, ?_⟩⟩
  · intro own
    by_contra behind
    obtain ⟨request, other, sent, sentOther, -, -, same⟩ :=
      clientKey_behind latin behind
    have first := own firstPeer firstPeer_address request sent
    have second := own secondPeer secondPeer_address other sentOther
    exact apart (first.symm.trans (same.trans second))
  · intro leads address valid request arrived
    exact clientKey_leads trusted leads valid arrived
  · intro shared
    by_contra behind
    obtain ⟨request, other, sent, sentOther, peer, otherPeer, same⟩ :=
      clientKey_behind latin behind
    have latinFirst := forward_latin1 proxy (List.forall_mem_nil _) (by decide : Latin1 firstPeer)
    have latinSecond := forward_latin1 proxy (List.forall_mem_nil _) (by decide : Latin1 secondPeer)
    have first := shared firstPeer firstPeer_address request (arriving _ latinFirst) sent
      (arriving_lines _ _) (peer.trans (arriving_peer _ _).symm)
    have second := shared secondPeer secondPeer_address other (arriving _ latinSecond) sentOther
      (arriving_lines _ _) (otherPeer.trans (arriving_peer _ _).symm)
    rw [clientKey_leads trusted (leads_nil proxy) firstPeer_address (arriving_lines _ _)] at first
    rw [clientKey_leads trusted (leads_nil proxy) secondPeer_address (arriving_lines _ _)] at second
    exact apart (first.symm.trans (same.trans second))
  · intro leads address valid request plain arrived arrivedPlain _
    rw [clientKey_leads trusted leads valid arrived,
      clientKey_leads trusted (leads_nil proxy) valid arrivedPlain]

/-- The forged entry of the source's own test does not count. -/
theorem clientKey_forwarded_iff_spoofed :
    clientKey (arriving [lit "spoofed, 203.0.113.7"] (by decide)) trusting =
      lit "203.0.113.7" := by
  have blank : ∀ point ∈ [(0x20 : CodePoint)], point = 0x20 ∨ point = 0x09 := by
    intro point member
    exact .inl (List.mem_singleton.mp member)
  have exact := (clientKey_forwarded_iff (rfl : trusting.trustForwardedFor = true)
    (.extendsLast [0x20] blank) [lit "spoofed"] (by decide)).1
  have valid : Address (lit "203.0.113.7") := ⟨by decide, by decide, by decide⟩
  exact exact.mpr (Nat.le_refl 1) _ valid _ (arriving_lines _ _)

/-- A proxy that adds a line of its own leaves the choice to the client. -/
theorem clientKey_forged :
    ¬ ∀ (proxy : Proxy) (lines : List Str), (∀ line ∈ lines, Latin1 line) →
      ∀ address, Address address → ∀ request : Request,
        request.lines forwardedFor = proxy.forward lines address →
        clientKey request trusting = address := by
  intro claimed
  have latin : ∀ line ∈ [lit "198.51.100.6", firstPeer], Latin1 line := by decide
  have own := claimed .addsLine [lit "198.51.100.6"] (by decide) firstPeer firstPeer_address
    (arriving _ latin) (arriving_lines _ latin)
  have read := clientKey_first (rfl : trusting.trustForwardedFor = true) (arriving_lines _ latin)
    (by decide)
  exact absurd (read.symm.trans own) (by decide)

end WebhookInbox.Receiver
