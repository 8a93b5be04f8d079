import StreamMachine.Config.Basic
import StreamMachine.Logging.Filter
import StreamMachine.Logging.Line

/-! The process-wide subscriber, which writes the events that its filter lets through. The first one
that is installed stays. -/
namespace StreamMachine

inductive LoggingError where
  | filter (error : FilterError)
  | installed
  deriving DecidableEq, Repr

def LoggingError.message : LoggingError → String
  | filter error => "invalid tracing directive: " ++ error.message
  | installed => "failed to install global tracing subscriber: " ++
      "a global default trace dispatcher has already been set"

/-- The filter a configuration asks for. Without directives of its own it takes those of the
environment, and if these are absent or wrong the default. -/
def LoggingConfig.filter (config : LoggingConfig) (environment : Option String) :
    Except FilterFault Filter :=
  match config.directives with
  | some directives => Filter.parse directives
  | none =>
    match environment.map Filter.parse with
    | none | some (.error (.wrong _)) => Filter.parse config.defaultDirective
    | some answer => answer

structure Subscriber where
  filter : Filter
  style : LineStyle

namespace Subscriber

/-- The part of an event that is let through, if any is; instructions around it are shown only
where the filter admits them. -/
def admit? (s : Subscriber) (e : Event) : Option Event :=
  if s.filter.admits e.notice.target e.notice.level then
    some { e with spans := e.spans.filter fun span => s.filter.admits span.target span.level }
  else none

def texts (s : Subscriber) (events : List Event) : List String :=
  (events.filterMap s.admit?).map s.style.event

/-- Tries to install a subscriber beside the one there may be; a wrong filter is noticed first. -/
def install (installed : Option Subscriber) (environment : Option String) (config : LoggingConfig) :
    Except Panic (Except LoggingError Subscriber) :=
  match config.filter environment with
  | .error (.panicked panic) => .error panic
  | .error (.wrong error) => .ok (.error (.filter error))
  | .ok filter =>
    match installed with
    | some _ => .ok (.error .installed)
    | none => .ok (.ok ⟨filter, ⟨config.includeTargets, config.ansi⟩⟩)

/-- Tries configurations in order; the outcomes, and the subscriber there is in the end. -/
def installAll (environment : Option String) : Option Subscriber → List LoggingConfig →
    Except Panic (List (Except LoggingError Unit) × Option Subscriber)
  | installed, [] => .ok ([], installed)
  | installed, config :: rest => do
    let outcome ← install installed environment config
    let (outcomes, last) ← installAll environment (outcome.toOption.or installed) rest
    pure (outcome.map (fun _ => ()) :: outcomes, last)

end Subscriber

end StreamMachine
