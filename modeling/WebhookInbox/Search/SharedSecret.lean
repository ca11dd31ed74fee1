import WebhookInbox.Replay.Disclosure
import WebhookInbox.Search.Redaction

/-!
# The shared secret and the search index

Which header presents the shared secret of an endpoint is configured. Which headers are
kept out of the index is decided by the list of sensitive names. `search_withholds_iff`
says for which configured names the index of an accepted request tells nothing about
the secret: those on the list, and those so long that the index is full before it comes
to the value.
-/

namespace WebhookInbox.Tokenize

open Library WebhookInbox.Endpoint WebhookInbox.Receiver WebhookInbox.Parser

/-! ## Requests that differ in one header -/

/-- The pairs without the values under a name. -/
def blank (name : Str) (pairs : Dict Str Str) : Dict Str Str :=
  Dict.mapValues (fun key value => if key = name then [] else value) pairs

/-- Two requests that differ at most in the values of one header. -/
structure SameBut (name : Str) (first second : Receiver.Request) : Prop where
  path : first.path = second.path
  method : first.method = second.method
  queryString : first.queryString = second.queryString
  chunks : first.chunks = second.chunks
  peer : first.peer = second.peer
  headers : blank name first.headers = blank name second.headers

/-- A character of a header name as servers pass it, in lower case. -/
def isFieldCharacter (point : CodePoint) : Bool :=
  isTermCharacter point || decide (point ∈ lit "!#$%&'*+-.^_`|~")

/-- A header name as servers pass it. -/
def FieldName (name : Str) : Prop := name ≠ [] ∧ ∀ point ∈ name, isFieldCharacter point = true

instance fieldNameDecidable (name : Str) : Decidable (FieldName name) :=
  inferInstanceAs (Decidable (_ ∧ _))

/-- Header names are Latin-1. -/
theorem FieldName.latin1 {name : Str} (field : FieldName name) : Latin1 name := by
  intro point member
  have own := field.2 point member
  rw [isFieldCharacter, Bool.or_eq_true] at own
  cases own with
  | inl term =>
    have range := of_decide_eq_true term
    omega
  | inr mark =>
    have small : (lit "!#$%&'*+-.^_`|~").all (fun mark => decide (mark.val < 256)) = true := by
      decide +kernel
    exact of_decide_eq_true (List.all_eq_true.mp small point (of_decide_eq_true mark))

/-- A blanked value is read back blanked. -/
theorem get_blank (name : Str) (pairs : Dict Str Str) (key : Str) :
    Dict.get (blank name pairs) key =
      (Dict.get pairs key).map (fun value => if key = name then [] else value) :=
  Dict.get_mapValues _ pairs key

/-- The other values are read back as they are. -/
theorem get_of_blank {name key : Str} {pairs others : Dict Str Str}
    (same : blank name pairs = blank name others) (different : key ≠ name) :
    Dict.get pairs key = Dict.get others key := by
  have read := congrArg (Dict.get · key) same
  simpa only [get_blank, different, ↓reduceIte, Option.map_id'] using read

/-- The stored headers of requests that differ in one header differ in it at most. -/
theorem headerDict_blank {name : Str} {first second : Receiver.Request}
    (same : blank name first.headers = blank name second.headers) :
    blank name first.headerDict = blank name second.headerDict := by
  have blanked : ∀ request : Receiver.Request, blank name request.headerDict =
      Dict.ofPairs ((blank name request.headers).map (fun header =>
        (header.1, (Dict.get (blank name request.headers) header.1).getD []))) := by
    intro request
    rw [Receiver.Request.headerDict, blank, ← Dict.ofPairs_mapValues]
    congr 1
    simp only [Dict.mapValues, blank, List.map_map]
    refine List.map_congr_left ?_
    intro header _
    have read := get_blank name request.headers header.1
    simp only [blank, Dict.mapValues] at read
    simp only [Function.comp_apply, read, Receiver.Request.header]
    cases Dict.get request.headers header.1 with
    | none => simp
    | some value => simp
  rw [blanked first, blanked second, same]

/-! ## A sensitive header -/

/-- Masking hides what was blanked under a sensitive name. -/
theorem maskedPairs_blank {casing : Casing} {name : Str} (pairs : Dict Str Str)
    (sensitive : isSensitive casing name = true) :
    maskedPairs casing (blank name pairs) = maskedPairs casing pairs := by
  rw [maskedPairs, maskedPairs, blank, Dict.mapValues, List.map_map]
  refine List.map_congr_left ?_
  intro pair _
  by_cases here : pair.1 = name
  · simp [here, sensitive]
  · simp [here]

/-- Text in ASCII without the markers is not sensitive. -/
theorem not_sensitive_ascii {casing : Casing} {key : Str} (ascii : Text.Ascii key)
    (plain : isSensitive Casing.ascii key = false) : isSensitive casing key = false := by
  rw [isSensitive, casing.lower_ascii key ascii]
  exact plain

/-- Neither the content type nor a header for the event type is sensitive. -/
theorem plain_headers {casing : Casing} {key : Str}
    (read : key ∈ lit "content-type" :: eventTypeHeaders) : isSensitive casing key = false := by
  have ascii : ∀ header ∈ lit "content-type" :: eventTypeHeaders, Text.Ascii header := by
    decide +kernel
  have plain : ∀ header ∈ lit "content-type" :: eventTypeHeaders,
      isSensitive Casing.ascii header = false := by decide +kernel
  exact not_sensitive_ascii (ascii key read) (plain key read)

/-! ## A header that the index does not come to -/

section
variable {casing : Casing}

/-- A text has at most one token more than its parts, and its length bounds these. -/
theorem length_tokenize_le (doubling : ∀ text, (casing.lower text).length ≤ 2 * text.length)
    (value : Str) : (tokenize casing value).length ≤ 4 * value.length + 2 := by
  have normal : ∀ text, (normalize casing text).length ≤ 2 * text.length := by
    intro text
    have stripped : (Text.strip text).length ≤ text.length :=
      (Text.stripBy_sublist _ _).length_le
    have lowered := doubling (Text.strip text)
    rw [normalize]
    omega
  have parts : ∀ text, (splitTerms casing text).length ≤ 2 * text.length + 1 := by
    intro text
    have split := length_splitOnP_le (fun point => !isTermCharacter point) (normalize casing text)
    have filtered := List.length_filter_le (fun part => decide (part ≠ []))
      ((normalize casing text).splitOnP (fun point => !isTermCharacter point))
    have short := normal text
    rw [splitTerms, List.length_map]
    omega
  have inner := parts (normalize casing value)
  have outer := normal value
  rw [tokenize]
  split
  · rw [List.length_append, List.length_singleton]
    omega
  · omega

/-- An endpoint name and a header that is read for the body or the event type do not fill
the index. -/
theorem few_of_read (doubling : ∀ text, (casing.lower text).length ≤ 2 * text.length)
    {name key : Str} (named : NameChecked name)
    (read : key ∈ lit "content-type" :: eventTypeHeaders) :
    (tokenize casing name ++ tokenize casing key).toFinset.card < tokenLimit := by
  have short : ∀ header ∈ lit "content-type" :: eventTypeHeaders, header.length ≤ 16 := by decide
  have ofName := length_tokenize_le doubling name
  have ofKey := length_tokenize_le doubling key
  have bound := named.2
  have keyBound := short key read
  have distinct := (tokenize casing name ++ tokenize casing key).toFinset_card_le
  rw [List.length_append] at distinct
  have limit : tokenLimit = 512 := rfl
  omega

/-- A word of ten letters, one for each bit. -/
def word (bits : Fin 10 → Bool) : Str := List.ofFn (fun place => if bits place then 0x61 else 0x62)

/-- There is a term that few tokens leave out. -/
theorem exists_fresh {tokens : List Str} (few : tokens.toFinset.card < tokenLimit) :
    ∃ term : Str, term ∉ tokens ∧ term.length = 10 ∧
      ∀ point ∈ term, isTermCharacter point = true := by
  have injective : Function.Injective word := by
    intro bits others same
    have values := List.ofFn_injective same
    funext place
    have value := congrFun values place
    revert value
    cases bits place <;> cases others place <;> decide
  have many : (Finset.univ.image word).card = 1024 := by
    rw [Finset.card_image_of_injective _ injective, Finset.card_univ, Fintype.card_fun,
      Fintype.card_bool, Fintype.card_fin]
    norm_num
  have more : tokens.toFinset.card < (Finset.univ.image word).card := by
    have limit : tokenLimit = 512 := rfl
    omega
  obtain ⟨term, inWords, fresh⟩ := Finset.exists_mem_notMem_of_card_lt_card more
  obtain ⟨bits, _, rfl⟩ := Finset.mem_image.mp inWords
  refine ⟨word bits, fun member => fresh (List.mem_toFinset.mpr member), List.length_ofFn, ?_⟩
  intro point member
  obtain ⟨place, rfl⟩ := List.mem_ofFn.mp member
  cases bits place <;> decide

/-- A term is its only token. -/
theorem tokenize_single {term : Str} (filled : term ≠ [])
    (own : ∀ point ∈ term, isTermCharacter point = true) (short : term.length ≤ maxTokenLength) :
    tokenize casing term = [term] := by
  rw [tokenize, normalize_characters own, splitTerms_single filled own short]
  rfl

end

/-! ## The exact condition -/

/-- A request that presents the secret is verified and stored. Header names are as servers
pass them. -/
structure Delivered (world : Environment) (settings : Settings) (endpoint : EndpointDoc)
    (secret : Str) (request : Receiver.Request) (now : Calendar.Instant) (doc : EventDoc) :
    Prop where
  fields : ∀ header ∈ request.headers, FieldName header.1
  verified : Signature.verify world.runtime.casing world.hexDigest
    { endpoint with secret := some secret } request.headerDict request.chunks.flatten = some true
  stored : store world settings { endpoint with secret := some secret } request
    request.chunks.flatten now = .inserted doc

/-- The name of the header keeps its value out of the index: it is sensitive, or the cap
is reached before the value. -/
def Withheld (casing : Casing) (name header : Str) : Prop :=
  isSensitive casing header = true ∨
    tokenLimit ≤ (tokenize casing name ++ tokenize casing header).toFinset.card

instance withheldDecidable (casing : Casing) (name header : Str) :
    Decidable (Withheld casing name header) :=
  inferInstanceAs (Decidable (_ ∨ _))

section
variable {world : Environment} {settings : Settings} {endpoint : EndpointDoc} {auth : AuthDoc}
  {secret : Str} {request : Receiver.Request} {now : Calendar.Instant} {doc : EventDoc}

/-- What `receive` accepts from an endpoint with a secret was delivered. -/
theorem delivered_of_receive {endpoints : Endpoints}
    (accepted : receive world settings endpoints request now = .inserted doc)
    (served : endpoints.findPath (normalizePath request.path) =
      some { endpoint with secret := some secret })
    (fields : ∀ header ∈ request.headers, FieldName header.1) :
    Delivered world settings endpoint secret request now doc := by
  obtain ⟨other, _, found, _, _, verified, stored⟩ := receive_verified accepted
  obtain rfl := Option.some.inj (served.symm.trans found)
  exact ⟨fields, verified, stored⟩

/-- The body, the event type and the terms of a delivered request. -/
theorem Delivered.search (delivered : Delivered world settings endpoint secret request now doc)
    {name : Str} (named : endpoint.name = some name) :
    ∃ body, parseBody world.runtime request.chunks.flatten
        ((request.headerDict.get (lit "content-type")).getD []) settings.limits.maxJsonDepth =
          .ok body ∧
      doc.search = build world.search name (extractEventType request.headerDict body)
        request.headerDict request.queryDict body := by
  obtain ⟨body, other, expiry, parsed, same, rfl⟩ := store_inserted delivered.stored
  obtain rfl := Option.some.inj (named.symm.trans same)
  exact ⟨body, parsed, rfl⟩

/-- The secret of a delivered request stands in the header of the configured name, which
is then one that servers pass. -/
theorem Delivered.presented (delivered : Delivered world settings endpoint secret request now doc)
    (authenticated : endpoint.authentication = some auth)
    (static : auth.type = AuthType.staticSecret.value) :
    request.headerDict.get (Runner.secretHeader auth) = some secret ∧
      FieldName (Runner.secretHeader auth) := by
  have presented := Runner.verify_static delivered.verified authenticated static rfl
  refine ⟨presented, ?_⟩
  obtain ⟨header, inRequest, same⟩ := List.mem_map.mp (Dict.mem_ofPairs (Dict.get_mem presented))
  have name : header.1 = Runner.secretHeader auth := congrArg Prod.fst same
  exact name ▸ delivered.fields header inRequest

/-- Two dictionaries that differ in one value are split at the name. -/
theorem split_of_blank {name : Str} {pairs others : Dict Str Str} {value : Str}
    (same : blank name pairs = blank name others) (found : Dict.get pairs name = some value) :
    ∃ before after rest other, pairs = before ++ (name, value) :: after ∧
      others = before ++ (name, other) :: rest := by
  induction pairs generalizing others with
  | nil => cases found
  | cons first later inductionHypothesis =>
    cases others with
    | nil => cases same
    | cons second further =>
      obtain ⟨firstKey, firstValue⟩ := first
      obtain ⟨secondKey, secondValue⟩ := second
      simp only [blank, Dict.mapValues, List.map_cons, List.cons.injEq, Prod.mk.injEq] at same
      obtain ⟨⟨rfl, value'⟩, remaining⟩ := same
      by_cases here : firstKey = name
      · subst here
        have read : firstValue = value := by simpa [Dict.get] using found
        exact ⟨[], later, further, secondValue, by rw [read, List.nil_append], rfl⟩
      · simp only [here, ↓reduceIte] at value'
        have deeper : Dict.get later name = some value := by
          simpa [Dict.get, here] using found
        obtain ⟨before, after, rest, other, split, otherSplit⟩ :=
          inductionHypothesis remaining deeper
        refine ⟨(firstKey, firstValue) :: before, after, rest, other, ?_, ?_⟩
        · rw [split, List.cons_append]
        · rw [otherSplit, value', List.cons_append]

/-- Of two headers that differ only behind a full index, the terms are the same. -/
theorem build_crowded {runtime : Tokenize.Runtime} {name header : Str} {eventType : Option Str}
    {headers others query : Dict Str Str} {body : Json} {value : Str}
    (crowded : tokenLimit ≤
      (tokenize runtime.casing name ++ tokenize runtime.casing header).toFinset.card)
    (plain : isSensitive runtime.casing header = false)
    (same : blank header headers = blank header others)
    (found : Dict.get headers header = some value) :
    build runtime name eventType headers query body =
      build runtime name eventType others query body := by
  obtain ⟨before, after, rest, other, rfl, rfl⟩ := split_of_blank same found
  have full : ∀ (text : Str) (pairs : Dict Str Str),
      capped tokenLimit ((sourceStrings runtime name eventType
        (before ++ (header, text) :: pairs) query body).flatMap (tokenize runtime.casing)) =
      capped tokenLimit (([name] ++ (eventType.filter (· ≠ [])).toList ++
        pairStrings runtime before ++ [header]).flatMap (tokenize runtime.casing)) := by
    intro text pairs
    have split : sourceStrings runtime name eventType (before ++ (header, text) :: pairs) query
        body = ([name] ++ (eventType.filter (· ≠ [])).toList ++ pairStrings runtime before ++
          [header]) ++ ([text] ++ pairStrings runtime pairs ++ pairStrings runtime query ++
          collect runtime body) := by
      simp [sourceStrings, pairStrings, plain]
    rw [split, List.flatMap_append]
    refine capped_append_of_many _ (by decide) (crowded.trans (Finset.card_le_card ?_))
    intro token member
    simp only [List.mem_toFinset, List.mem_append, List.mem_flatMap, List.mem_singleton] at member ⊢
    cases member with
    | inl ofName => exact ⟨name, .inl (.inl (.inl rfl)), ofName⟩
    | inr ofHeader => exact ⟨header, .inr rfl, ofHeader⟩
  simp only [build, full]

/-- Nothing of the secret reaches the index if the name withholds it. -/
theorem same_search (doubling : ∀ text, (world.runtime.casing.lower text).length ≤ 2 * text.length)
    {name : Str} (named : endpoint.name = some name) (checked : NameChecked name)
    (authenticated : endpoint.authentication = some auth)
    (static : auth.type = AuthType.staticSecret.value)
    (withheld : Withheld world.runtime.casing name (Runner.secretHeader auth))
    {otherSecret : Str} {other : Receiver.Request} {otherNow : Calendar.Instant}
    {otherDoc : EventDoc}
    (first : Delivered world settings endpoint secret request now doc)
    (second : Delivered world settings endpoint otherSecret other otherNow otherDoc)
    (same : SameBut (Runner.secretHeader auth) request other) : doc.search = otherDoc.search := by
  obtain ⟨body, parsed, search⟩ := first.search named
  obtain ⟨otherBody, otherParsed, otherSearch⟩ := second.search named
  have headers := headerDict_blank same.headers
  have query : request.queryDict = other.queryDict := by
    rw [Receiver.Request.queryDict, Receiver.Request.queryDict, same.queryString]
  -- a header that is read for more than the index neither is sensitive nor lies behind the cap
  have unread : ∀ key ∈ lit "content-type" :: eventTypeHeaders, key ≠ Runner.secretHeader auth := by
    rintro key read rfl
    cases withheld with
    | inl sensitive =>
      rw [plain_headers read] at sensitive
      cases sensitive
    | inr crowded => exact absurd (few_of_read doubling checked read) (not_lt.mpr crowded)
  have contentType := get_of_blank headers (unread _ List.mem_cons_self)
  rw [contentType, same.chunks] at parsed
  obtain rfl := Except.ok.inj (parsed.symm.trans otherParsed)
  have eventType : extractEventType request.headerDict body =
      extractEventType other.headerDict body := by
    have texts : firstText (Dict.get request.headerDict) eventTypeHeaders =
        firstText (Dict.get other.headerDict) eventTypeHeaders := by
      refine firstText_congr ?_
      intro key read
      exact get_of_blank headers (unread key (List.mem_cons_of_mem _ read))
    unfold extractEventType
    rw [texts]
  rw [search, otherSearch, eventType, query]
  cases sensitive : isSensitive world.runtime.casing (Runner.secretHeader auth) with
  | true =>
    refine build_insensitive world.search name _ ?_ rfl rfl
    change maskedPairs world.runtime.casing _ = maskedPairs world.runtime.casing _
    rw [← maskedPairs_blank request.headerDict sensitive, headers,
      maskedPairs_blank other.headerDict sensitive]
  | false =>
    have crowded := withheld.resolve_left (by rw [sensitive]; exact Bool.false_ne_true)
    exact build_crowded crowded sensitive headers (first.presented authenticated static).1

end

/-! ## A secret that is found -/

/-- A request with nothing but the header. -/
def presenting (header secret : Str) (field : FieldName header) (plain : Latin1 secret) :
    Receiver.Request where
  path := []
  method := lit "POST"
  headers := [(header, secret)]
  queryString := []
  urlQuery := []
  chunks := []
  peer := none
  headersLatin1 single member := by
    rw [List.mem_singleton] at member
    exact member ▸ ⟨field.latin1, plain⟩
  queryAscii _ member := absurd member List.not_mem_nil
  peerScalar _ member := absurd member (Option.not_mem_none _)
  measurable := by decide

/-- Settings without retention. -/
def keepingSettings : Settings := { retention := { enabled := false } }

/-- Terms are ASCII. -/
theorem ascii_of_term {text : Str} (own : ∀ point ∈ text, isTermCharacter point = true) :
    Text.Ascii text := by
  intro point member
  have range := of_decide_eq_true (own point member)
  omega

/-- The event type of a request with nothing but a header is its value, if any. -/
theorem eventType_presenting {header secret : Str} :
    ∀ text ∈ extractEventType [(header, secret)] .null, text = secret := by
  intro text found
  simp only [extractEventType] at found
  split at found
  · rename_i given texts
    obtain ⟨key, _, read⟩ := List.exists_of_findSome?_eq_some texts
    have pair := Dict.get_mem (Option.filter_eq_some_iff.mp read).1
    rw [List.mem_singleton] at pair
    exact (Option.some.inj found).symm.trans (congrArg Prod.snd pair)
  · cases found

/-- The tokens of a request with nothing but a header that is not sensitive. -/
theorem tokens_presenting {runtime : Tokenize.Runtime} {name header secret : Str}
    {eventType : Option Str} (told : ∀ text ∈ eventType, text = secret)
    (plain : isSensitive runtime.casing header = false)
    (single : tokenize runtime.casing secret = [secret])
    (few : (tokenize runtime.casing name ++ tokenize runtime.casing header).toFinset.card <
      tokenLimit) (token : Str) :
    token ∈ (build runtime name eventType [(header, secret)] [] .null).tokens ↔
      token ∈ tokenize runtime.casing name ++ tokenize runtime.casing header ∨ token = secret := by
  have values : ∀ other : Str, other ∈ (sourceStrings runtime name eventType [(header, secret)] []
        .null).flatMap (tokenize runtime.casing) ↔
      other ∈ tokenize runtime.casing name ++ tokenize runtime.casing header ∨ other = secret := by
    intro other
    simp only [sourceStrings, pairStrings, collect, List.flatMap_cons, List.flatMap_nil, plain,
      List.mem_flatMap, List.mem_append, List.mem_cons, List.not_mem_nil, or_false,
      Bool.false_eq_true, ↓reduceIte, Option.mem_toList, Option.filter_eq_some_iff]
    constructor
    · rintro ⟨source, (rfl | ⟨given, _⟩) | rfl | rfl, tokenized⟩
      · exact .inl (.inl tokenized)
      · rw [told source given, single, List.mem_singleton] at tokenized
        exact .inr tokenized
      · exact .inl (.inr tokenized)
      · rw [single, List.mem_singleton] at tokenized
        exact .inr tokenized
    · rintro ((ofName | ofHeader) | rfl)
      · exact ⟨name, .inl (.inl rfl), ofName⟩
      · exact ⟨header, .inr (.inl rfl), ofHeader⟩
      · exact ⟨other, .inr (.inr rfl), single ▸ List.mem_singleton_self other⟩
  have room : ((sourceStrings runtime name eventType [(header, secret)] [] .null).flatMap
      (tokenize runtime.casing)).toFinset.card ≤ tokenLimit := by
    refine (Finset.card_le_card ?_).trans ((Finset.card_insert_le secret _).trans few)
    intro other member
    rw [Finset.mem_insert, List.mem_toFinset]
    exact ((values other).mp (List.mem_toFinset.mp member)).symm
  rw [← values token]
  exact ⟨mem_capped, mem_capped_of_few room⟩

/-- While there is room in the index, two values of a header that is not sensitive have
different terms.

Proof: there is a term that is in neither name; it is indexed when it is the value. -/
theorem exists_indexed {runtime : Tokenize.Runtime} {name header : Str}
    (plain : isSensitive runtime.casing header = false)
    (few : (tokenize runtime.casing name ++ tokenize runtime.casing header).toFinset.card <
      tokenLimit) :
    ∃ value other : Str, (value ≠ [] ∧ ∀ point ∈ value, isTermCharacter point = true) ∧
      (other ≠ [] ∧ ∀ point ∈ other, isTermCharacter point = true) ∧
      ∀ {eventType otherType : Option Str}, (∀ text ∈ eventType, text = value) →
        (∀ text ∈ otherType, text = other) →
        build runtime name eventType [(header, value)] [] .null ≠
          build runtime name otherType [(header, other)] [] .null := by
  obtain ⟨value, fresh, long, own⟩ := exists_fresh few
  have filled : value ≠ [] := List.ne_nil_of_length_eq_add_one long
  have ownOther : ∀ point ∈ lit "0", isTermCharacter point = true :=
    List.all_eq_true.mp (by decide +kernel)
  have single : tokenize runtime.casing value = [value] :=
    tokenize_single filled own (by rw [long]; decide)
  have singleOther : tokenize runtime.casing (lit "0") = [lit "0"] :=
    tokenize_single (by decide) ownOther (by decide)
  refine ⟨value, lit "0", ⟨filled, own⟩, ⟨by decide, ownOther⟩, ?_⟩
  intro eventType otherType told toldOther same
  have indexed := (tokens_presenting told plain single few value).mpr (.inr rfl)
  rw [same] at indexed
  cases (tokens_presenting toldOther plain singleOther few value).mp indexed with
  | inl before => exact fresh before
  | inr equal =>
    rw [equal] at long
    cases long

section
variable {endpoint : EndpointDoc} {auth : AuthDoc}

/-- A term can be the secret of a request with nothing but the header. -/
theorem delivered_presenting (world : Environment) {name secret : Str}
    (named : endpoint.name = some name)
    (authenticated : endpoint.authentication = some auth)
    (static : auth.type = AuthType.staticSecret.value)
    (field : FieldName (Runner.secretHeader auth)) (plain : Latin1 secret) (filled : secret ≠ [])
    (own : ∀ point ∈ secret, isTermCharacter point = true) :
    ∃ doc, Delivered world keepingSettings endpoint secret
        (presenting (Runner.secretHeader auth) secret field plain) 0 doc ∧
      doc.search = build world.search name
        (extractEventType [(Runner.secretHeader auth, secret)] .null)
        [(Runner.secretHeader auth, secret)] [] .null := by
  have headers : (presenting (Runner.secretHeader auth) secret field plain).headerDict =
      [(Runner.secretHeader auth, secret)] := by
    simp [Receiver.Request.headerDict, presenting, Receiver.Request.header, Dict.get,
      Dict.ofPairs, Dict.union, Dict.set]
  have verified : Signature.verify world.runtime.casing world.hexDigest
      { endpoint with secret := some secret } [(Runner.secretHeader auth, secret)] [] =
        some true := by
    have type : AuthType.ofValue auth.type = some .staticSecret := by rw [static, ofValue_value]
    have found : Dict.get [(Runner.secretHeader auth, secret)] (Runner.secretHeader auth) =
        some secret := by simp [Dict.get]
    have ascii : (secret ++ secret).all (fun point => decide (point.val < 128)) = true := by
      rw [List.all_append, Bool.and_self, List.all_eq_true]
      exact fun point member => decide_eq_true (ascii_of_term own point member)
    have kept : (some secret).filter (fun text => decide (text ≠ [])) = some secret := by
      simp [filled]
    change _ = _
    simp only [Signature.verify, authenticated, type, kept]
    rw [show Signature.orElse auth.header ((defaultAuthHeader .staticSecret).getD []) =
      Runner.secretHeader auth from rfl, found, kept]
    simp [Signature.compareDigest, ascii]
  have stored : ∃ doc, store world keepingSettings { endpoint with secret := some secret }
      (presenting (Runner.secretHeader auth) secret field plain) [] 0 = .inserted doc ∧
      doc.search = build world.search name
        (extractEventType [(Runner.secretHeader auth, secret)] .null)
        [(Runner.secretHeader auth, secret)] [] .null := by
    have body : ∀ contentType depth, parseBody world.runtime [] contentType depth =
        .ok .null := fun _ _ => rfl
    simp only [store, body, named, headers]
    exact ⟨_, rfl, rfl⟩
  obtain ⟨doc, stores, search⟩ := stored
  refine ⟨doc, ⟨?_, ?_, stores⟩, search⟩
  · intro header member
    obtain rfl := List.mem_singleton.mp member
    exact field
  · rw [headers]
    exact verified

/-- The index of accepted requests tells nothing about the secret of an endpoint exactly if
servers pass no header of the configured name, or the name withholds the value.

Proof: a sensitive header is masked, and a header behind a full index is not looked at;
from any other, a term that is in neither name is indexed. -/
theorem search_withholds_iff {world : Environment}
    (doubling : ∀ text, (world.runtime.casing.lower text).length ≤ 2 * text.length)
    {name : Str} (named : endpoint.name = some name) (checked : NameChecked name)
    (authenticated : endpoint.authentication = some auth)
    (static : auth.type = AuthType.staticSecret.value) :
    (∀ (settings : Settings) (secret other : Str) (first second : Receiver.Request)
        (firstNow secondNow : Calendar.Instant) (firstDoc secondDoc : EventDoc),
      Delivered world settings endpoint secret first firstNow firstDoc →
      Delivered world settings endpoint other second secondNow secondDoc →
      SameBut (Runner.secretHeader auth) first second → firstDoc.search = secondDoc.search) ↔
    (FieldName (Runner.secretHeader auth) →
      Withheld world.runtime.casing name (Runner.secretHeader auth)) := by
  constructor
  · intro hidden field
    by_contra shown
    obtain ⟨listed, crowded⟩ := not_or.mp shown
    have plain : isSensitive world.runtime.casing (Runner.secretHeader auth) = false := by
      simpa using listed
    obtain ⟨value, other, ⟨filled, own⟩, ⟨filledOther, ownOther⟩, differ⟩ :=
      @exists_indexed world.search name (Runner.secretHeader auth) plain (not_le.mp crowded)
    have latin : ∀ {text : Str}, (∀ point ∈ text, isTermCharacter point = true) → Latin1 text :=
      fun characters point member => lt_trans (ascii_of_term characters point member) (by norm_num)
    obtain ⟨doc, delivered, search⟩ := delivered_presenting world named authenticated
      static field (latin own) filled own
    obtain ⟨otherDoc, otherDelivered, otherSearch⟩ := delivered_presenting world named
      authenticated static field (latin ownOther) filledOther ownOther
    have same := hidden keepingSettings value other _ _ 0 0 doc otherDoc delivered
      otherDelivered ⟨rfl, rfl, rfl, rfl, rfl, by simp [presenting, blank, Dict.mapValues]⟩
    rw [search, otherSearch] at same
    exact differ eventType_presenting eventType_presenting same
  · intro withheld settings secret other first second firstNow secondNow firstDoc secondDoc
      delivered otherDelivered same
    exact same_search doubling named checked authenticated static
      (withheld (delivered.presented authenticated static).2) delivered otherDelivered same

end

/-- The default header is sensitive, and the secret in it is not searchable. -/
theorem search_withholds_default :
    isSensitive Casing.ascii
        (Runner.secretHeader (Runner.secretCreate none).authentication.dump) = true ∧
      ∀ (settings : Settings) (secret other : Str) (first second : Receiver.Request)
        (firstNow secondNow : Calendar.Instant) (firstDoc secondDoc : EventDoc),
        Delivered plainWorld settings ((Runner.secretCreate none).toDocument ⟨1⟩ 0) secret first
          firstNow firstDoc →
        Delivered plainWorld settings ((Runner.secretCreate none).toDocument ⟨1⟩ 0) other second
          secondNow secondDoc →
        SameBut (Runner.secretHeader (Runner.secretCreate none).authentication.dump) first second →
        firstDoc.search = secondDoc.search := by
  have doubling : ∀ text : Str, (Casing.ascii.lower text).length ≤ 2 * text.length := by
    intro text
    rw [Casing.ascii, List.length_map]
    omega
  have sensitive : isSensitive Casing.ascii
      (Runner.secretHeader (Runner.secretCreate none).authentication.dump) = true := by
    decide +kernel
  have withholds := @search_withholds_iff ((Runner.secretCreate none).toDocument ⟨1⟩ 0)
    (Runner.secretCreate none).authentication.dump plainWorld doubling (lit "GitHub") rfl
    Runner.named_gitHub rfl rfl
  constructor
  · exact sensitive
  · apply withholds.mpr
    intro _
    exact .inl sensitive

/-- The secret of an endpoint before and after it is replaced. -/
def keySecret (replaced : Bool) : Str := if replaced then lit "bravo" else lit "alpha"

/-- An endpoint whose requests present the secret as an API key. -/
def keyCreate (replaced : Bool) : EndpointCreate :=
  { Runner.secretCreate (some (lit "X-Api-Key")) with secret := some (keySecret replaced) }

/-- The collection with that endpoint. -/
def keyEndpoints (replaced : Bool) : Endpoints :=
  match Endpoints.empty.insertOne ((keyCreate replaced).toDocument ⟨1⟩ 0) with
  | .ok endpoints => endpoints
  | .error _ => .empty

theorem latin1_key (replaced : Bool) :
    ∀ header ∈ [(lit "content-type", lit "application/json"),
      (lit "x-api-key", keySecret replaced)], Latin1 header.1 ∧ Latin1 header.2 := by
  cases replaced <;> decide +kernel

/-- A delivery with the API key. -/
def presentedAsKey (replaced : Bool) : Receiver.Request :=
  { small with
    headers := [(lit "content-type", lit "application/json"),
      (lit "x-api-key", keySecret replaced)]
    headersLatin1 := latin1_key replaced }

/-- What it stores. -/
def keyDoc (replaced : Bool) : Option EventDoc :=
  (receive plainWorld {} (keyEndpoints replaced) (presentedAsKey replaced) 0).doc

/-- The name of an API key in a header has a hyphen, which no sensitive name for it has. -/
theorem search_discloses_key :
    ¬ ∀ (world : Environment) (settings : Settings) (endpoints otherEndpoints : Endpoints)
      (endpoint : EndpointDoc) (auth : AuthDoc) (secret otherSecret : Str)
      (request other : Receiver.Request) (now otherNow : Calendar.Instant)
      (doc otherDoc : EventDoc),
      receive world settings endpoints request now = .inserted doc →
      receive world settings otherEndpoints other otherNow = .inserted otherDoc →
      endpoints.findPath (normalizePath request.path) =
        some { endpoint with secret := some secret } →
      otherEndpoints.findPath (normalizePath other.path) =
        some { endpoint with secret := some otherSecret } →
      endpoint.authentication = some auth → auth.type = AuthType.staticSecret.value →
      SameBut (Runner.secretHeader auth) request other → doc.search = otherDoc.search := by
  intro claimed
  have stored : ∀ replaced, (keyDoc replaced).isSome = true := by decide +kernel
  have served : ∀ replaced, (keyEndpoints replaced).findPath
      (normalizePath (presentedAsKey replaced).path) =
        some { (keyCreate false).toDocument ⟨1⟩ 0 with secret := some (keySecret replaced) } := by
    decide +kernel
  have alike : SameBut (Runner.secretHeader (keyCreate false).authentication.dump)
      (presentedAsKey false) (presentedAsKey true) :=
    ⟨rfl, rfl, rfl, rfl, rfl, by decide +kernel⟩
  obtain ⟨doc, before⟩ := Option.isSome_iff_exists.mp (stored false)
  obtain ⟨otherDoc, after⟩ := Option.isSome_iff_exists.mp (stored true)
  have same := claimed plainWorld {} (keyEndpoints false) (keyEndpoints true)
    ((keyCreate false).toDocument ⟨1⟩ 0) (keyCreate false).authentication.dump (keySecret false)
    (keySecret true) (presentedAsKey false) (presentedAsKey true) 0 0 doc otherDoc
    (Outcome.inserted_of_doc before) (Outcome.inserted_of_doc after) (served false) (served true)
    rfl rfl alike
  have differ : (keyDoc false).map EventDoc.search ≠ (keyDoc true).map EventDoc.search := by
    decide +kernel
  rw [before, after, Option.map_some, Option.map_some, same] at differ
  exact differ rfl

end WebhookInbox.Tokenize
