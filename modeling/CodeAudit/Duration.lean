import CodeAudit.Text

/-! Lengths of time as whole seconds and nanoseconds, and instants as nanoseconds since the epoch.
Conversions compute in 64-bit arithmetic and drop what is less than a millisecond, toward zero. -/
namespace CodeAudit

def nanosPerSecond : Int64 := 1000000000

def nanosPerMillisecond : Int64 := 1000000

structure Duration where
  seconds : Int64 := 0
  nanos : Int32 := 0
deriving DecidableEq, Repr

namespace Duration

def nanoseconds (d : Duration) : Int64 := d.seconds * nanosPerSecond + d.nanos.toInt64

def milliseconds (d : Duration) : Int64 := d.nanoseconds / nanosPerMillisecond

end Duration

/-- Milliseconds since the epoch as an unsigned number. -/
def unixMilliseconds (nanoseconds : Int64) : UInt64 := (nanoseconds / nanosPerMillisecond).toUInt64

end CodeAudit
