import MetricWatch.Clock.Stopwatch
import MetricWatch.Log
import MetricWatch.Query.Exchange

namespace MetricWatch.Watch

/-! The details of a query, which are only written down at the lower levels of the
log. -/

def askingRecord (url : Url) : LogRecord :=
  ⟨.debug, "promwatch::prom::client", "Querying " ++ url.toText⟩

def replyRecord (reply : Query.Reply) : LogRecord :=
  ⟨.debug, "promwatch::prom::client",
    "Received " ++ decimalText reply.body.length ++ " bytes with HTTP status " ++ reply.status⟩

def durationRecord (expression : String) (elapsed : Elapsed) : LogRecord :=
  ⟨.debug, "promwatch", "Query `" ++ expression ++ "` took " ++ elapsed.text ++ "ms"⟩

end MetricWatch.Watch
