import WebhookInbox.Replay.Runner

/-!
# How much of a response is kept

The limit is met between chunks, so the chunk that crosses it is dropped as a whole.
Whether the response was longer is recorded exactly; what is kept is as much as fits only
if the chunks end at the limit.
-/

namespace WebhookInbox.Runner

open Library

/-- Some of the chunks end where this much is read. -/
def EndsAt (length : Nat) (chunks : List Bytes) : Prop :=
  ∃ first, first <+: chunks ∧ first.flatten.length = length

/-- Nothing is read before the first chunk. -/
theorem endsAt_zero (chunks : List Bytes) : EndsAt 0 chunks := ⟨[], List.nil_prefix, rfl⟩

/-- A chunk that is longer is not over yet. -/
theorem endsAt_short {length : Nat} {chunk : Bytes} {rest : List Bytes}
    (longer : length < chunk.length) : EndsAt length (chunk :: rest) ↔ length = 0 := by
  constructor
  · rintro ⟨first, leads, ends⟩
    cases first with
    | nil => exact ends.symm
    | cons other others =>
      obtain ⟨rfl, -⟩ := List.cons_prefix_cons.mp leads
      rw [List.flatten_cons, List.length_append] at ends
      omega
  · rintro rfl
    exact endsAt_zero _

/-- A chunk that fits leaves the rest to what is left. -/
theorem endsAt_cons {length : Nat} {chunk : Bytes} {rest : List Bytes}
    (fits : chunk.length ≤ length) :
    EndsAt length (chunk :: rest) ↔ EndsAt (length - chunk.length) rest := by
  constructor
  · rintro ⟨first, leads, ends⟩
    cases first with
    | nil =>
      obtain rfl : 0 = length := ends
      rw [Nat.zero_sub]
      exact endsAt_zero rest
    | cons other others =>
      obtain ⟨rfl, later⟩ := List.cons_prefix_cons.mp leads
      rw [List.flatten_cons, List.length_append] at ends
      exact ⟨others, later, by omega⟩
  · rintro ⟨first, leads, ends⟩
    refine ⟨chunk :: first, List.cons_prefix_cons.mpr ⟨rfl, leads⟩, ?_⟩
    rw [List.flatten_cons, List.length_append]
    omega

section
variable (total left : Nat) (chunk : Bytes) (rest : List Bytes)

/-- A chunk that crosses the limit ends the reading. -/
theorem readChunks_crossed (crosses : left < chunk.length) :
    readChunks ((total + left : Nat) : Int) total (chunk :: rest) = ([], true) := by
  rw [readChunks, if_pos (by omega)]

/-- A chunk that fits is kept. -/
theorem readChunks_kept (fits : chunk.length ≤ left) :
    readChunks ((total + left : Nat) : Int) total (chunk :: rest) =
      let (body, truncated) := readChunks
        ((total + chunk.length + (left - chunk.length) : Nat) : Int) (total + chunk.length) rest
      (chunk ++ body, truncated) := by
  have same : total + left = total + chunk.length + (left - chunk.length) := by omega
  rw [readChunks, if_neg (by omega), same]

end

/-- The flag tells whether there was more than fits. -/
theorem readChunks_truncated (total left : Nat) (chunks : List Bytes) :
    (readChunks ((total + left : Nat) : Int) total chunks).2 =
      decide (left < chunks.flatten.length) := by
  induction chunks generalizing total left with
  | nil => rfl
  | cons chunk rest inductionHypothesis =>
    rw [List.flatten_cons, List.length_append]
    by_cases crosses : left < chunk.length
    · rw [readChunks_crossed total left chunk rest crosses]
      exact (decide_eq_true (Nat.lt_add_right _ crosses)).symm
    · rw [readChunks_kept total left chunk rest (Nat.le_of_not_lt crosses)]
      refine (inductionHypothesis _ _).trans (decide_eq_decide.mpr ?_)
      omega

/-- As much as fits is kept exactly if everything fits or some chunks end at the limit. -/
theorem readChunks_take_iff (total left : Nat) (chunks : List Bytes) :
    (readChunks ((total + left : Nat) : Int) total chunks).1 = chunks.flatten.take left ↔
      chunks.flatten.length ≤ left ∨ EndsAt left chunks := by
  induction chunks generalizing total left with
  | nil => simp [readChunks]
  | cons chunk rest inductionHypothesis =>
    rw [List.flatten_cons, List.length_append]
    by_cases crosses : left < chunk.length
    · rw [readChunks_crossed total left chunk rest crosses, endsAt_short crosses, eq_comm,
        List.take_eq_nil_iff, ← List.length_eq_zero_iff, List.length_append]
      omega
    · have fits := Nat.le_of_not_lt crosses
      rw [readChunks_kept total left chunk rest fits, endsAt_cons fits, List.take_append,
        List.take_of_length_le fits, List.append_cancel_left_eq, inductionHypothesis,
        Nat.le_sub_iff_add_le' fits]

/-- What is kept of a complete response is as much as fits, and it is said whether that is
all, exactly if everything fits or some chunks end at the limit. -/
theorem request_prefix_iff {client : Request → Except ClientError Answer} {issued : Request}
    {config : ReplayConfig} {response : Answer} (answered : client issued = .ok response)
    (complete : response.broken = none) (limited : 0 ≤ config.maxResponseSize) :
    request client issued config = .ok (response,
        response.chunks.flatten.take config.maxResponseSize.toNat,
        decide (config.maxResponseSize < response.chunks.flatten.length)) ↔
      response.chunks.flatten.length ≤ config.maxResponseSize ∨
        ∃ first, first <+: response.chunks ∧ first.flatten.length = config.maxResponseSize := by
  obtain ⟨limit, bound⟩ := Int.eq_ofNat_of_zero_le limited
  have flag := readChunks_truncated 0 limit response.chunks
  have kept := readChunks_take_iff 0 limit response.chunks
  rw [Nat.zero_add] at flag kept
  simp only [request, answered, complete, bound, Except.ok.injEq, Prod.mk.injEq, true_and, flag,
    Int.toNat_natCast, Nat.cast_lt, and_true, Nat.cast_le, Nat.cast_inj]
  exact kept

/-- A request to some destination. -/
def exampleRequest : Request where
  method := lit "POST"
  url := ⟨lit "http", [], lit "192.0.2.1", none, lit "/hook", false⟩
  headers := []
  content := none
  sniHostname := lit "example.org"

/-- A response of two bytes in these chunks. -/
def exampleAnswer (chunks : List Bytes) : Answer where
  statusCode := 200
  headers := []
  chunks := chunks
  broken := none

/-- A limit of one byte. -/
def exampleConfig : ReplayConfig := { maxResponseSize := 1 }

/-- Chunks of one byte end at the limit. -/
theorem request_prefix_iff_even :
    request (fun _ => .ok (exampleAnswer [[0x61], [0x62]])) exampleRequest exampleConfig =
      .ok (exampleAnswer [[0x61], [0x62]], [0x61], true) := by
  have exact : request (fun _ => .ok (exampleAnswer [[0x61], [0x62]])) exampleRequest
      exampleConfig = .ok (exampleAnswer [[0x61], [0x62]], [0x61], true) ↔ _ :=
    request_prefix_iff rfl rfl (by decide)
  exact exact.mpr (.inr ⟨[[0x61]], ⟨[[0x62]], rfl⟩, rfl⟩)

/-- In one chunk nothing of the same response is kept. -/
theorem request_chunk_lost :
    ¬ ∀ (client : Request → Except ClientError Answer) (issued : Request) (config : ReplayConfig)
        (response : Answer), client issued = .ok response → response.broken = none →
        0 ≤ config.maxResponseSize →
        request client issued config = .ok (response,
          response.chunks.flatten.take config.maxResponseSize.toNat,
          decide (config.maxResponseSize < response.chunks.flatten.length)) := by
  intro claimed
  have kept := claimed (fun _ => .ok (exampleAnswer [[0x61, 0x62]])) exampleRequest exampleConfig
    (exampleAnswer [[0x61, 0x62]]) rfl rfl (by decide)
  have read := congrArg (fun outcome => outcome.toOption.map (fun found => found.2.1)) kept
  exact absurd read (by decide)

end WebhookInbox.Runner
