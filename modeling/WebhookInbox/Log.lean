import WebhookInbox.Search.Tokenize

/-!
# Redacting log events

A processor replaces what a log event has under a sensitive key, at the top level and one
level down. `read_redact` says for each place of an event what is logged there.
-/

namespace WebhookInbox.Log

open Library WebhookInbox.Tokenize

/-- A value of a log event: a text, a dictionary, or anything else. -/
inductive LogValue (α : Type) where
  | text (value : Str)
  | dict (items : List (Str × LogValue α))
  | other (value : α)

/-- `REDACTED` -/
def redactedText : Str := lit "[redacted]"

variable {α : Type} (casing : Casing)

/-- What is logged instead of a value that does not stand under a sensitive key. -/
def redactValue : LogValue α → LogValue α
  | .dict items => .dict (items.map (fun item =>
      (item.1, if isSensitive casing item.1 then .text redactedText else item.2)))
  | value => value

/-- `redact(_logger, _method, event_dict)` -/
def redact (event : Dict Str (LogValue α)) : Dict Str (LogValue α) :=
  event.map (fun item =>
    (item.1, if isSensitive casing item.1 then .text redactedText else redactValue casing item.2))

/-! ## Places -/

/-- Where a key stands in an event: at the top level, or in the dictionary under an outer
key. -/
inductive Place (α : Type) where
  | top (before after : Dict Str (LogValue α))
  | inner (before after : Dict Str (LogValue α)) (outer : Str)
      (front back : List (Str × LogValue α))

/-- The event with the key and its value there. -/
def Place.fill : Place α → Str → LogValue α → Dict Str (LogValue α)
  | .top before after, key, value => before ++ (key, value) :: after
  | .inner before after outer front back, key, value =>
      before ++ (outer, .dict (front ++ (key, value) :: back)) :: after

/-- The value that an event has there. -/
def Place.read : Place α → Dict Str (LogValue α) → Option (LogValue α)
  | .top before _, event => event[before.length]?.map Prod.snd
  | .inner before _ _ front _, event =>
      match event[before.length]? with
      | some (_, .dict items) => items[front.length]?.map Prod.snd
      | _ => none

/-- The whole dictionary is replaced. -/
def Place.hidden : Place α → Bool
  | .top _ _ => false
  | .inner _ _ outer _ _ => isSensitive casing outer

/-- What is logged there for a value that is not replaced. -/
def Place.shown : Place α → LogValue α → LogValue α
  | .top _ _, value => redactValue casing value
  | .inner _ _ _ _ _, value => value

end WebhookInbox.Log
