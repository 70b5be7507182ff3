import CacheHierarchy.Prefetch.Stride
import CacheHierarchy.Config.Basic

set_option autoImplicit false

/-! # Prefetchers

The prefetcher of a cache trains on every request the cache admits, other than a writeback,
and leaves its requests in its buffer. A disabled prefetcher has a buffer that holds nothing.
-/

namespace CacheHierarchy

/-- The prefetcher of a cache. -/
inductive Prefetcher where
  | disabled
  | stride (s : Stride)
  deriving Repr, Inhabited

namespace Prefetcher

/-- Build the prefetcher a cache labelled `label` is configured with: a stride prefetcher
needs a degree of at least one, and its table has at least one entry. -/
def build (cfg : PrefetcherConfig) (label : String) (lineSize : Nat) :
    Except ConfigError Prefetcher :=
  match cfg with
  | .disabled => .ok .disabled
  | .stride tableSize degree distance nextLines bufferSize =>
    if degree = 0 then .error (.zeroPrefetchDegree label)
    else .ok (.stride (Stride.new lineSize (Nat.max tableSize 1) degree distance nextLines
      bufferSize))

/-- Train on an admitted request: the prefetcher after it, and the overflow that stopped the
training, if any. The changes made before an overflow stay. -/
def train (p : Prefetcher) (pkt : Packet) (now : Nat) : Prefetcher × Option Overflow :=
  match p with
  | .disabled => (.disabled, none)
  | .stride s =>
    match Id.run ((Stride.train pkt.pc pkt.addr now).run.run s) with
    | (.ok (), s) => (.stride s, none)
    | (.error o, s) => (.stride s, some o)

/-- The buffer of generated requests. -/
def buffer : Prefetcher → RequestBuffer
  | .disabled => {}
  | .stride s => s.buffer

/-- Remove the oldest generated request. -/
def pop : Prefetcher → Option Packet × Prefetcher
  | .disabled => (none, .disabled)
  | .stride s => let (p, b) := s.buffer.pop; (p, .stride { s with buffer := b })

def stat : Prefetcher → PrefetchStat
  | .disabled => {}
  | .stride s => s.stat

end Prefetcher

end CacheHierarchy
