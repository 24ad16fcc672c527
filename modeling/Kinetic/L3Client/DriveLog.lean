import Kinetic.L1Wire.Proto

/-!
# The drive log

What a caller of `GetLog` is given: the fields of a response, copied one by one by
`GetLogHandler::Handle`. A field that the device has left out is copied as its
default, and the name of a statistic is that of its message type.
-/
open Kinetic.Core

namespace Kinetic.L3

open L1

/-- mirrors include/kinetic/drive_log.h:25-28 -/
structure Capacity where
  nominalCapacityInBytes : Nat
  portionFull : FloatBits
  deriving DecidableEq, Repr

/-- mirrors include/kinetic/drive_log.h:30-34 -/
structure OperationStatistic where
  name : String
  count : Nat
  bytes : Nat
  deriving DecidableEq, Repr

/-- mirrors include/kinetic/drive_log.h:36-39 -/
structure Utilization where
  name : Bytes
  percent : FloatBits
  deriving DecidableEq, Repr

/-- mirrors include/kinetic/drive_log.h:41-47 -/
structure Temperature where
  name : Bytes
  currentDegC : FloatBits
  minDegC : FloatBits
  maxDegC : FloatBits
  targetDegC : FloatBits
  deriving DecidableEq, Repr

/-- mirrors include/kinetic/drive_log.h:49-58 -/
structure Configuration where
  vendor : Bytes
  model : Bytes
  serialNumber : Bytes
  version : Bytes
  port : Int
  tlsPort : Int
  compilationDate : Bytes
  sourceHash : Bytes
  deriving DecidableEq, Repr

/-- mirrors include/kinetic/drive_log.h:60-69 -/
structure Limits where
  maxKeySize : Nat
  maxValueSize : Nat
  maxVersionSize : Nat
  maxTagSize : Nat
  maxConnections : Nat
  maxOutstandingReadRequests : Nat
  maxOutstandingWriteRequests : Nat
  maxMessageSize : Nat
  deriving DecidableEq, Repr

/-- mirrors include/kinetic/drive_log.h:72-80 -/
structure DriveLog where
  configuration : Configuration
  capacity : Capacity
  operationStatistics : List OperationStatistic
  utilizations : List Utilization
  temperatures : List Temperature
  limits : Limits
  messages : Bytes
  deriving DecidableEq, Repr

namespace GetLogHandler

def configuration (c : GetLog.Configuration) : Configuration where
  vendor := c.vendor.getD []
  model := c.model.getD []
  serialNumber := c.serialNumber.getD []
  version := c.version.getD []
  sourceHash := c.sourceHash.getD []
  compilationDate := c.compilationDate.getD []
  port := c.port.getD 0
  tlsPort := c.tlsPort.getD 0

def capacity (c : GetLog.Capacity) : Capacity where
  nominalCapacityInBytes := c.nominalCapacityInBytes.getD 0
  portionFull := c.portionFull.getD 0

def limits (l : GetLog.Limits) : Limits where
  maxKeySize := l.maxKeySize.getD 0
  maxValueSize := l.maxValueSize.getD 0
  maxVersionSize := l.maxVersionSize.getD 0
  maxTagSize := l.maxTagSize.getD 0
  maxConnections := l.maxConnections.getD 0
  maxOutstandingReadRequests := l.maxOutstandingReadRequests.getD 0
  maxOutstandingWriteRequests := l.maxOutstandingWriteRequests.getD 0
  maxMessageSize := l.maxMessageSize.getD 0

def statistic (s : GetLog.Statistics) : OperationStatistic where
  name := (s.messageType.getD .invalidMessageType).name
  count := s.count.getD 0
  bytes := s.bytes.getD 0

def utilization (u : GetLog.Utilization) : Utilization where
  name := u.name.getD []
  percent := u.value.getD 0

def temperature (t : GetLog.Temperature) : Temperature where
  name := t.name.getD []
  currentDegC := t.current.getD 0
  targetDegC := t.target.getD 0
  maxDegC := t.maximum.getD 0
  minDegC := t.minimum.getD 0

/-- mirrors src/main/nonblocking_kinetic_connection.cc:145-203, `getlog` being
that of the response's body -/
def driveLog (getlog : GetLog) : DriveLog where
  configuration := configuration (getlog.configuration.getD {})
  capacity := capacity (getlog.capacity.getD {})
  limits := limits (getlog.limits.getD {})
  operationStatistics := getlog.statistics.map statistic
  utilizations := getlog.utilizations.map utilization
  temperatures := getlog.temperatures.map temperature
  messages := getlog.messages.getD []

/-! ## What a log shows -/

/-- The response that spells a log out. -/
def spelled (log : DriveLog) (types : List MessageType) : GetLog where
  configuration := some {
    vendor := some log.configuration.vendor
    model := some log.configuration.model
    serialNumber := some log.configuration.serialNumber
    version := some log.configuration.version
    sourceHash := some log.configuration.sourceHash
    compilationDate := some log.configuration.compilationDate
    port := some log.configuration.port
    tlsPort := some log.configuration.tlsPort }
  capacity := some {
    nominalCapacityInBytes := some log.capacity.nominalCapacityInBytes
    portionFull := some log.capacity.portionFull }
  limits := some {
    maxKeySize := some log.limits.maxKeySize
    maxValueSize := some log.limits.maxValueSize
    maxVersionSize := some log.limits.maxVersionSize
    maxTagSize := some log.limits.maxTagSize
    maxConnections := some log.limits.maxConnections
    maxOutstandingReadRequests := some log.limits.maxOutstandingReadRequests
    maxOutstandingWriteRequests := some log.limits.maxOutstandingWriteRequests
    maxMessageSize := some log.limits.maxMessageSize }
  statistics := List.zipWith (fun t s => ⟨some t, some s.count, some s.bytes⟩) types
    log.operationStatistics
  utilizations := log.utilizations.map fun u => ⟨some u.name, some u.percent⟩
  temperatures := log.temperatures.map fun t =>
    ⟨some t.name, some t.currentDegC, some t.minDegC, some t.maxDegC, some t.targetDegC⟩
  messages := some log.messages

/-- **A log is what the device says**: the response that spells it out is copied
into it, field for field and entry for entry. -/
theorem driveLog_spelled (log : DriveLog) (types : List MessageType)
    (h : log.operationStatistics.map OperationStatistic.name = types.map MessageType.name) :
    driveLog (spelled log types) = log := by
  obtain ⟨configuration, capacity, statistics, utilizations, temperatures, limits, messages⟩ := log
  have hstatistics : (List.zipWith (fun t (s : OperationStatistic) =>
      (⟨some t, some s.count, some s.bytes⟩ : GetLog.Statistics)) types statistics).map statistic =
      statistics := by
    induction types generalizing statistics with
    | nil =>
      obtain rfl : statistics = [] := by simpa using h
      rfl
    | cons t types ih =>
      cases statistics with
      | nil => rfl
      | cons s statistics =>
        obtain ⟨hname, hrest⟩ := List.cons.inj h
        have hs : statistic ⟨some t, some s.count, some s.bytes⟩ = s := by
          obtain ⟨name, count, bytes⟩ := s
          obtain rfl : name = t.name := hname
          rfl
        rw [List.zipWith_cons_cons, List.map_cons, hs, ih statistics hrest]
  have hutilizations : (utilizations.map fun u : Utilization =>
      (⟨some u.name, some u.percent⟩ : GetLog.Utilization)).map utilization = utilizations := by
    rw [List.map_map]
    exact List.map_id _
  have htemperatures : (temperatures.map fun t : Temperature => (⟨some t.name, some t.currentDegC,
      some t.minDegC, some t.maxDegC, some t.targetDegC⟩ : GetLog.Temperature)).map temperature =
      temperatures := by
    rw [List.map_map]
    exact List.map_id _
  simp only [driveLog, spelled, hstatistics, hutilizations, htemperatures]
  rfl

end GetLogHandler
end Kinetic.L3
