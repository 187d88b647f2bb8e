/-!
# Enrichment services

An enrichment service finds values for a text and says how much it trusts them.

* `Enrichment` is what it finds, `ServiceFault` why it does not answer;
* `Relevance.ofScore` sorts findings into good, doubtful and useless ones;
* `Client` is a service with a state of its own.
-/

set_option autoImplicit false

namespace ChartFeed

/-- Values found for a text. -/
structure Enrichment where
  values : List String
  /-- How much the service trusts them, from zero to one. -/
  relevance : Float
deriving DecidableEq

/-- Why a service does not answer. -/
inductive ServiceFault where
  | network (detail : String)
  | protocol (input detail : String)
  | timeout (input detail : String)
  | request (input detail : String)
  | missingKey (service : String)
deriving DecidableEq

/-- The word for the kind of a fault. -/
def ServiceFault.kind : ServiceFault → String
  | .network _ => "network"
  | .protocol _ _ => "protocol"
  | .timeout _ _ => "timeout"
  | .request _ _ => "request"
  | .missingKey _ => "missing_api_key"

/-- The wording of a fault. -/
def ServiceFault.message : ServiceFault → String
  | .network detail => "A network error occurred: " ++ detail
  | .protocol input detail =>
    "The request for " ++ input ++ " returned a wrong HTTP answer: " ++ detail
  | .timeout input detail => "The request for " ++ input ++ " ran into a time out: " ++ detail
  | .request input detail => "While trying to enrich " ++ input ++ ", an error occurred: " ++ detail
  | .missingKey service => "No API key was supplied for " ++ service

/-- How good a finding is. -/
inductive Relevance where
  | success
  | doubt
  | failed
deriving DecidableEq

namespace Relevance

/-- A score above this is a success. -/
def successScore : Float := 0.8

/-- A score above this is at least in doubt. -/
def doubtScore : Float := 0.49

/-- The relevance of a score. -/
def ofScore (score : Float) : Relevance :=
  if score > successScore then .success else if score > doubtScore then .doubt else .failed

/-- The relevance of an answer; to find nothing is a failure. -/
def ofAnswer : Option Enrichment → Relevance
  | some found => ofScore found.relevance
  | none => .failed

/-- The word for a relevance. -/
def name : Relevance → String
  | .success => "success"
  | .doubt => "doubt"
  | .failed => "failed"

end Relevance

/-- An answer of a service: values, nothing, or a fault. -/
abbrev Answer := Except ServiceFault (Option Enrichment)

end ChartFeed
