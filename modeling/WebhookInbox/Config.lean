import Mathlib.Data.Int.Basic

/-!
# Settings

The sections of the configuration that the modelled code reads, with the
defaults of the source. Every number is an unbounded integer: the models
declare `int` without bounds, so negative values are admitted.
-/

namespace WebhookInbox

structure LimitsConfig where
  maxPayloadSize : Int := 10 * 1024 * 1024
  maxHeaderCount : Int := 100
  maxHeaderBytes : Int := 16 * 1024
  maxQueryLength : Int := 4 * 1024
  maxJsonDepth : Int := 100

structure RetentionConfig where
  enabled : Bool := true
  defaultDays : Int := 30

structure ReplayConfig where
  timeout : Int := 10
  maxRetries : Int := 3
  retryDelaySeconds : Int := 2
  allowPrivateNetworks : Bool := false
  allowRedirects : Bool := false
  maxRedirects : Int := 3
  maxResponseSize : Int := 64 * 1024
  leaseTimeout : Int := 60

structure RateLimitConfig where
  trustForwardedFor : Bool := false

structure Settings where
  limits : LimitsConfig := {}
  retention : RetentionConfig := {}
  replay : ReplayConfig := {}
  rateLimit : RateLimitConfig := {}

end WebhookInbox
