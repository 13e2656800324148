import Mathlib.Algebra.Order.Field.Rat
import Mathlib.Data.List.Dedup
import ProductionStack.Dict

namespace ProductionStack.StatsMonitor

structure MovingAverageMonitor where
  slidingWindowSize : ℚ
  timestamps : List ℚ := []
  values : List ℚ := []
  deriving DecidableEq

namespace MovingAverageMonitor

/-- Both queues are popped from the left while the oldest timestamp is out of the window. -/
def expire (horizon : ℚ) : List ℚ → List ℚ → List ℚ × List ℚ
  | t :: timestamps, values =>
    if t < horizon then expire horizon timestamps values.tail else (t :: timestamps, values)
  | [], values => ([], values)

def updateNoValue (m : MovingAverageMonitor) (timestamp : ℚ) : MovingAverageMonitor :=
  let (timestamps, values) := expire (timestamp - m.slidingWindowSize) m.timestamps m.values
  { m with timestamps, values }

def update (m : MovingAverageMonitor) (timestamp value : ℚ) : MovingAverageMonitor :=
  { m with timestamps := m.timestamps ++ [timestamp], values := m.values ++ [value] }.updateNoValue timestamp

def getSum (m : MovingAverageMonitor) : ℚ := m.values.sum

def getAverage (m : MovingAverageMonitor) : ℚ :=
  if m.values = [] then -1 else m.values.sum / m.values.length

end MovingAverageMonitor

structure RequestStatsMonitor where
  slidingWindowSize : ℚ
  qpsMonitors : Dict String MovingAverageMonitor := .empty
  ttftMonitors : Dict String MovingAverageMonitor := .empty
  requestStartTime : Dict (String × String) ℚ := .empty
  firstTokenTime : Dict (String × String) ℚ := .empty
  inPrefillRequests : Dict String Int := .empty
  inDecodingRequests : Dict String Int := .empty
  finishedRequests : Dict String Int := .empty
  latencyMonitors : Dict String MovingAverageMonitor := .empty
  swappedRequests : Dict String Int := .empty
  firstQueryTime : Option ℚ := none

def increment (d : Dict String Int) (url : String) : Dict String Int := d.set url (d.getD url 0 + 1)

/-- A missing counter reads as 1 before it is decremented, and the result is clamped. -/
def decrement (d : Dict String Int) (url : String) : Dict String Int :=
  d.set url (max 0 (d.getD url 1 - 1))

namespace RequestStatsMonitor

variable (m : RequestStatsMonitor)

def monitorOf (d : Dict String MovingAverageMonitor) (engineUrl : String) : MovingAverageMonitor :=
  d.getD engineUrl { slidingWindowSize := m.slidingWindowSize }

def onNewRequest (engineUrl requestId : String) (timestamp : ℚ) : RequestStatsMonitor :=
  { m with
    requestStartTime := m.requestStartTime.set (engineUrl, requestId) timestamp
    inPrefillRequests := increment m.inPrefillRequests engineUrl
    qpsMonitors := m.qpsMonitors.set engineUrl ((m.monitorOf m.qpsMonitors engineUrl).update timestamp 1)
    latencyMonitors := m.latencyMonitors.set engineUrl (m.monitorOf m.latencyMonitors engineUrl)
    firstQueryTime := some (m.firstQueryTime.getD timestamp) }

def onRequestResponse (engineUrl requestId : String) (timestamp : ℚ) : RequestStatsMonitor :=
  match m.requestStartTime.get? (engineUrl, requestId) with
  | none => m
  | some start =>
    { m with
      firstTokenTime := m.firstTokenTime.set (engineUrl, requestId) timestamp
      inPrefillRequests := decrement m.inPrefillRequests engineUrl
      inDecodingRequests := increment m.inDecodingRequests engineUrl
      ttftMonitors := m.ttftMonitors.set engineUrl
        ((m.monitorOf m.ttftMonitors engineUrl).update timestamp (timestamp - start)) }

/-- The latency is measured with a second reading of the clock, now. The start
time is recorded together with a latency monitor, so the lookup of the latter
does not fail. -/
def onRequestComplete (engineUrl requestId : String) (timestamp now : ℚ) : RequestStatsMonitor :=
  { m with
    inDecodingRequests := decrement m.inDecodingRequests engineUrl
    finishedRequests := increment m.finishedRequests engineUrl
    latencyMonitors :=
      match m.requestStartTime.get? (engineUrl, requestId) with
      | none => m.latencyMonitors
      | some start =>
        if start = 0 then m.latencyMonitors
        else m.latencyMonitors.set engineUrl
          ((m.monitorOf m.latencyMonitors engineUrl).update timestamp (now - start)) }

def onRequestSwapped (engineUrl : String) : RequestStatsMonitor :=
  { m with swappedRequests := increment m.swappedRequests engineUrl }

end RequestStatsMonitor

structure RequestStats where
  qps : ℚ
  ttft : ℚ
  inPrefillRequests : Int
  inDecodingRequests : Int
  finishedRequests : Int
  uptime : ℚ
  avgDecodingLength : ℚ
  avgLatency : ℚ
  avgItl : ℚ
  numSwappedRequests : Int
  deriving DecidableEq

namespace RequestStatsMonitor

def expireWindow (d : Dict String MovingAverageMonitor) (engineUrl : String) (now : ℚ) :
    Dict String MovingAverageMonitor :=
  match d.get? engineUrl with
  | none => d
  | some w => d.set engineUrl (w.updateNoValue now)

/-- The windows of the engine are moved to the current time before they are
read, except that of the latencies. -/
def engineStats (m : RequestStatsMonitor) (engineUrl : String) (now : ℚ) : RequestStats × RequestStatsMonitor :=
  let m := { m with
    qpsMonitors := expireWindow m.qpsMonitors engineUrl now
    ttftMonitors := expireWindow m.ttftMonitors engineUrl now }
  let average (d : Dict String MovingAverageMonitor) : ℚ :=
    match d.get? engineUrl with
    | none => -1
    | some w => w.getAverage
  ({ qps := match m.qpsMonitors.get? engineUrl with
        | none => -1
        | some w => w.getSum / m.slidingWindowSize
     ttft := average m.ttftMonitors
     inPrefillRequests := m.inPrefillRequests.getD engineUrl 0
     inDecodingRequests := m.inDecodingRequests.getD engineUrl 0
     finishedRequests := m.finishedRequests.getD engineUrl 0
     uptime := match m.firstQueryTime with
        | none => 0
        | some t => if t = 0 then 0 else now - t
     avgDecodingLength := -1
     avgLatency := average m.latencyMonitors
     avgItl := -1
     numSwappedRequests := m.swappedRequests.getD engineUrl 0 }, m)

def getRequestStats (m : RequestStatsMonitor) (now : ℚ) : Dict String RequestStats × RequestStatsMonitor :=
  ((m.inPrefillRequests.keys ++ m.inDecodingRequests.keys).dedup).foldl
    (fun r url => let (stats, m) := r.2.engineStats url now; (r.1.set url stats, m)) (.empty, m)

end RequestStatsMonitor

@[simp] theorem getD_increment_self (d : Dict String Int) (url : String) :
    (increment d url).getD url 0 = d.getD url 0 + 1 := by
  simp [increment, Dict.getD]

theorem getD_increment_of_ne (d : Dict String Int) {url other : String} (h : other ≠ url) :
    (increment d url).getD other 0 = d.getD other 0 := by
  simp [increment, Dict.getD, Dict.get?_set_of_ne _ _ h]

@[simp] theorem getD_decrement_self (d : Dict String Int) (url : String) :
    (decrement d url).getD url 0 = max 0 (d.getD url 0 - 1) := by
  cases h : d.get? url <;> simp [decrement, Dict.getD, h]

theorem getD_decrement_of_ne (d : Dict String Int) {url other : String} (h : other ≠ url) :
    (decrement d url).getD other 0 = d.getD other 0 := by
  simp [decrement, Dict.getD, Dict.get?_set_of_ne _ _ h]

end ProductionStack.StatsMonitor
