import WebhookInbox.RateLimit

/-!
# Routes behind a limiter

A route asks the limiter under a key that it takes from the request, unless a check that
comes before refuses the request. What it answers depends on the limiter only by what that
says for the key.

So the replies to the requests of one key are those that they would get alone, and in a
window of time no more of them pass than the bucket holds and what flows in.
-/

namespace WebhookInbox.RateLimit

open Library Library.TokenBucket

/-- `limiter.allow(bucket)`, and `limiter.retry_after(bucket)` if that refuses: after how
many seconds to retry, or nothing. -/
def RateLimiter.ask (limiter : RateLimiter) (key : Str) (now : ℚ) : Option Int × RateLimiter :=
  let (allowed, next) := limiter.allow key now
  (if allowed then none else some (next.retryAfter key now), next)

/-- A route behind a limiter: the key of a request that gets as far, and the answer to a
request, given what the limiter says. -/
structure Route (α β : Type*) where
  key : α → Option Str
  reply : α → Option Int → β

section
variable {α β : Type*} (route : Route α β)

/-- One request at its time. -/
def Route.serve (limiter : RateLimiter) (request : α) (now : ℚ) : β × RateLimiter :=
  match route.key request with
  | none => (route.reply request none, limiter)
  | some key => (route.reply request (limiter.ask key now).1, (limiter.ask key now).2)

/-- The answers to requests, one after another. -/
def Route.replies : RateLimiter → List (α × ℚ) → List β
  | _, [] => []
  | limiter, (request, now) :: rest =>
      (route.serve limiter request now).1 ::
        Route.replies (route.serve limiter request now).2 rest

/-- The limiter after them. -/
def Route.after : RateLimiter → List (α × ℚ) → RateLimiter
  | limiter, [] => limiter
  | limiter, (request, now) :: rest => Route.after (route.serve limiter request now).2 rest

/-- The request asks under this key. -/
def Route.asks (key : Str) (request : α × ℚ) : Bool := decide (route.key request.1 = some key)

/-- The requests that ask under a key, with their answers. -/
def Route.answered (limiter : RateLimiter) (requests : List (α × ℚ)) (key : Str) :
    List ((α × ℚ) × β) :=
  (requests.zip (route.replies limiter requests)).filter (fun served => route.asks key served.1)

/-- What a bucket says that was just asked. -/
def verdict (perMinute : Int) (asked : Bool × Bucket ℚ) : Option Int :=
  if asked.1 then none else some (⌊waiting ((perMinute : ℚ) / 60) asked.2⌋ + 1)

/-- The answers to requests that all ask one bucket. It is filled at the first. -/
def Route.alone (perMinute : Int) : Option (Bucket ℚ) → List (α × ℚ) → List β
  | _, [] => []
  | bucket, (request, now) :: rest =>
      let asked := offer (perMinute : ℚ) (perMinute / 60)
        (bucket.getD (fresh (perMinute : ℚ) now)) now
      route.reply request (verdict perMinute asked) :: Route.alone perMinute (some asked.2) rest

end

section
variable {perMinute : Int} {limiter : RateLimiter} {key other : Str} {now later : ℚ}
  {bucket : Option (Bucket ℚ)}

/-- Asked for its key, the limiter says what the bucket says, and is left following it. -/
theorem ask_same (positive : 1 ≤ perMinute) (sound : Sound perMinute limiter)
    (follows : Follows perMinute key now limiter bucket) (advanced : now ≤ later) :
    let asked := offer (perMinute : ℚ) (perMinute / 60)
      (bucket.getD (fresh (perMinute : ℚ) later)) later
    (limiter.ask key later).1 = verdict perMinute asked ∧
      Sound perMinute (limiter.ask key later).2 ∧
      Follows perMinute key later (limiter.ask key later).2 (some asked.2) := by
  intro asked
  obtain ⟨decided, next⟩ := allow_same positive sound follows advanced
  have kept := allow_sound sound key later
  have told : (limiter.allow key later).2.retryAfter key later =
      ⌊waiting ((perMinute : ℚ) / 60) asked.2⌋ + 1 :=
    retryAfter_eq positive kept next offer_updated
  refine ⟨?_, kept, next⟩
  simp only [RateLimiter.ask, verdict, decided, told]
  rfl

/-- Asked for another key, it is left following the bucket. -/
theorem ask_other (positive : 1 ≤ perMinute) (sound : Sound perMinute limiter)
    (follows : Follows perMinute key now limiter bucket) (advanced : now ≤ later)
    (different : key ≠ other) :
    Sound perMinute (limiter.ask other later).2 ∧
      Follows perMinute key later (limiter.ask other later).2 bucket :=
  ⟨allow_sound sound other later, allow_other positive sound follows advanced different⟩

end

/-! ## Routes -/

section
variable {α β : Type*} {route : Route α β} {perMinute : Int} {limiter : RateLimiter} {key : Str}
  {now : ℚ} {bucket : Option (Bucket ℚ)} {requests : List (α × ℚ)}

/-- From any state the requests of a key are answered as its bucket says.

Induction on the requests: one of another key, or of none, leaves the bucket alone. -/
theorem answered_follow (positive : 1 ≤ perMinute) (sound : Sound perMinute limiter)
    (follows : Follows perMinute key now limiter bucket)
    (ordered : (requests.map Prod.snd).Pairwise (· ≤ ·))
    (later : ∀ time ∈ requests.map Prod.snd, now ≤ time) :
    route.answered limiter requests key =
      (requests.filter (route.asks key)).zip
        (route.alone perMinute bucket (requests.filter (route.asks key))) := by
  induction requests generalizing limiter now bucket with
  | nil => rfl
  | cons first rest inductionHypothesis =>
    obtain ⟨request, time⟩ := first
    obtain ⟨earliest, orderedRest⟩ := List.pairwise_cons.mp ordered
    have advanced := later time List.mem_cons_self
    by_cases own : route.key request = some key
    · obtain ⟨told, kept, next⟩ := ask_same positive sound follows advanced
      have rested := inductionHypothesis kept next orderedRest earliest
      simp only [Route.answered, Route.replies, Route.serve, Route.asks, own, List.zip_cons_cons,
        decide_true, List.filter_cons_of_pos, Route.alone, told] at rested ⊢
      rw [rested]
    · have passed : ∃ left, (route.serve limiter request time).2 = left ∧
          Sound perMinute left ∧ Follows perMinute key time left bucket := by
        unfold Route.serve
        cases asked : route.key request with
        | none => exact ⟨limiter, rfl, sound, follows.until advanced⟩
        | some other =>
          obtain ⟨kept, next⟩ := ask_other positive sound follows advanced
            (fun same => own (asked.trans (congrArg some same.symm)))
          exact ⟨_, rfl, kept, next⟩
      obtain ⟨left, reached, kept, next⟩ := passed
      have rested := inductionHypothesis kept next orderedRest earliest
      simpa [Route.answered, Route.replies, Route.asks, own, reached] using rested

/-- One more request is answered by what the others leave. -/
theorem replies_snoc (limiter : RateLimiter) (requests : List (α × ℚ)) (request : α) (now : ℚ) :
    route.replies limiter (requests ++ [(request, now)]) =
        route.replies limiter requests ++
          [(route.serve (route.after limiter requests) request now).1] ∧
      route.after limiter (requests ++ [(request, now)]) =
        (route.serve (route.after limiter requests) request now).2 := by
  induction requests generalizing limiter with
  | nil => exact ⟨rfl, rfl⟩
  | cons first rest inductionHypothesis =>
    obtain ⟨replies, after⟩ := inductionHypothesis (route.serve limiter first.1 first.2).2
    exact ⟨congrArg _ replies, after⟩

/-- Requests that all ask under the key keep all their answers. -/
theorem answered_own (own : ∀ request ∈ requests, route.asks key request = true) :
    route.answered limiter requests key = requests.zip (route.replies limiter requests) := by
  refine List.filter_eq_self.mpr ?_
  intro served member
  exact own served.1 (List.of_mem_zip member).1

/-- A limiter that is off lets every request pass. -/
theorem replies_open (off : limiter.enabled = false) :
    route.replies limiter requests = requests.map (fun request => route.reply request.1 none) := by
  induction requests with
  | nil => rfl
  | cons first rest inductionHypothesis =>
    have served : route.serve limiter first.1 first.2 = (route.reply first.1 none, limiter) := by
      unfold Route.serve
      cases route.key first.1 with
      | none => rfl
      | some other => simp [RateLimiter.ask, allow_disabled off]
    rw [Route.replies, served, inductionHypothesis, List.map_cons]

end

section
variable {α β : Type*} {route : Route α β} {requests : List (α × ℚ)}

/-- From the start the requests of a key are answered as a fresh bucket says. -/
theorem answered_new {perMinute : Int} (positive : 1 ≤ perMinute)
    (ordered : (requests.map Prod.snd).Pairwise (· ≤ ·)) (key : Str) :
    route.answered (RateLimiter.new perMinute) requests key =
      (requests.filter (route.asks key)).zip
        (route.alone perMinute none (requests.filter (route.asks key))) := by
  cases requests with
  | nil => rfl
  | cons first rest =>
    have since : ∀ time ∈ (first :: rest).map Prod.snd, first.2 ≤ time :=
      List.forall_mem_cons.mpr ⟨le_refl first.2, (List.pairwise_cons.mp ordered).1⟩
    exact answered_follow positive (new_sound positive) (new_follows perMinute key first.2) ordered
      since

/-- The requests of a key are answered as they would be alone, whatever is configured. -/
theorem answered_alone (perMinute : Int) (enabled : Bool)
    (ordered : (requests.map Prod.snd).Pairwise (· ≤ ·)) (key : Str) :
    route.answered (RateLimiter.new perMinute enabled) requests key =
      (requests.filter (route.asks key)).zip
        (route.replies (RateLimiter.new perMinute enabled) (requests.filter (route.asks key))) := by
  have own : ∀ request ∈ requests.filter (route.asks key), route.asks key request = true :=
    fun request member => (List.mem_filter.mp member).2
  by_cases off : (RateLimiter.new perMinute enabled).enabled = false
  · rw [Route.answered, replies_open off, replies_open off, ← List.map_prod_left_eq_zip,
      ← List.map_prod_left_eq_zip, List.filter_map]
    rfl
  · have working : enabled = true ∧ 0 < perMinute := by simpa [RateLimiter.new] using off
    obtain ⟨rfl, positive⟩ := working
    have filtered : ((requests.filter (route.asks key)).map Prod.snd).Pairwise (· ≤ ·) :=
      ordered.sublist (List.filter_sublist.map Prod.snd)
    rw [answered_new positive ordered, ← answered_own own, answered_new positive filtered,
      List.filter_filter]
    simp only [Bool.and_self]

/-- What passes the bucket between two times is among what the bucket allows. -/
theorem alone_le {perMinute : Int} {first last : ℚ} {good : β → Bool}
    (refused : ∀ request seconds, good (route.reply request (some seconds)) = false)
    (bucket : Option (Bucket ℚ)) :
    (requests.zip (route.alone perMinute bucket requests)).countP (fun served =>
        decide (first ≤ served.1.2 ∧ served.1.2 ≤ last) && good served.2) ≤
      allowedBetween first last ((requests.map Prod.snd).zip
        (TokenBucket.decisions (perMinute : ℚ) (perMinute / 60) bucket
          (requests.map Prod.snd))) := by
  induction requests generalizing bucket with
  | nil => exact Nat.zero_le _
  | cons request rest inductionHypothesis =>
    simp only [Route.alone, allowedBetween, TokenBucket.decisions, List.map_cons,
      List.zip_cons_cons, List.countP_cons]
    refine Nat.add_le_add (inductionHypothesis _) ?_
    cases allowed : (offer (perMinute : ℚ) (perMinute / 60)
        (bucket.getD (fresh (perMinute : ℚ) request.2)) request.2).1 with
    | false => simp [verdict, allowed, refused]
    | true =>
      rw [Bool.and_true]
      split
      · next counted => rw [if_pos (Bool.and_eq_true_iff.mp counted).1]
      · exact Nat.zero_le _

/-- In a window of time no more requests of a key pass than the bucket holds and what
flows in. -/
theorem answered_bounded {perMinute : Int} (positive : 1 ≤ perMinute)
    (ordered : (requests.map Prod.snd).Pairwise (· ≤ ·)) (key : Str) {first last : ℚ}
    (window : first ≤ last) {good : β → Bool}
    (refused : ∀ request seconds, good (route.reply request (some seconds)) = false) :
    ((route.answered (RateLimiter.new perMinute) requests key).countP (fun served =>
        decide (first ≤ served.1.2 ∧ served.1.2 ≤ last) && good served.2) : ℚ) ≤
      perMinute + (last - first) * perMinute / 60 := by
  have filled : (0 : ℚ) ≤ perMinute := by exact_mod_cast zero_le_one.trans positive
  have own : ((requests.filter (route.asks key)).map Prod.snd).Pairwise (· ≤ ·) :=
    ordered.sublist (List.filter_sublist.map Prod.snd)
  have bounded := allowedBetween_le filled (by positivity : (0 : ℚ) ≤ perMinute / 60) window own
  rw [answered_new positive ordered, mul_div_assoc]
  refine le_trans ?_ bounded
  exact_mod_cast alone_le refused none

end

end WebhookInbox.RateLimit
