import CacheHierarchy.Machine.Basic
import CacheHierarchy.Decimal.Fixed

set_option autoImplicit false

/-! # The report

The report of a machine is a list of sections, each a header and lines of text: the
simulator (cycles and whether it drained), the directory, one summary per hierarchy level,
then per cache its counters, its line usage and (if it counted anything) its prefetcher,
then each memory controller and each core.

The report opens with its title centred in a rule of `=` and closes with a rule alone. The
rule is as wide as the widest section (a section's width is fixed, or its header's length
if longer), but no wider than the width the reader allows, and never narrower than 24.

Ratios are computed in double precision and written with fixed decimals: hit rates as
percentages with two, averages with two, the share of dropped prefetches with three.
-/

namespace CacheHierarchy

structure Section where
  header : String
  width : Nat
  lines : List String
  deriving DecidableEq, Repr, Inhabited

namespace Report

open Text

/-- The double nearest `part / total`, zero when `total` is zero. -/
def ratio (part total : Nat) : Binary64 :=
  if total = 0 then Binary64.ofNat 0
  else ((Binary64.ofNat part).div (Binary64.ofNat total)).getD (Binary64.ofNat 0)

/-- The percentage `part / total` in doubles, zero when `total` is zero. -/
def percent (part total : Nat) : Binary64 :=
  if total = 0 then Binary64.ofNat 0
  else ((ratio part total).mul (Binary64.ofNat 100)).getD (Binary64.ofNat 0)

/-- The average of a summary of durations, zero when it is empty. -/
def average (d : Durations) : Binary64 := ratio d.total d.count

/-- The number `n` right-aligned in `w` places. -/
def num (w n : Nat) : String := alignRight w (toString n)

/-- The double `x` with `places` decimals, right-aligned in `w` places. -/
def fixed (w places : Nat) (x : Binary64) : String := alignRight w (x.toFixed places)

/-- The hit and miss line of an operation. -/
def hitMiss (o : Operation) (hit miss : Nat) : String :=
  "  " ++ alignLeft 10 o.name ++ " hit " ++ num 10 hit ++ " miss " ++ num 10 miss

/-- The line with the number of accesses and the hit rate. -/
def accessLine (accesses hits : Nat) : String :=
  "  accesses: " ++ num 12 accesses ++ " (hit rate " ++ fixed 6 2 (percent hits accesses) ++ "%)"

/-- The sum of the five counts. -/
def total (c : PerOperation) : Nat := c.toList.foldl (· + ·) 0

def simulator (cycle : Nat) (drained : Bool) : Section :=
  { header := "simulator stat", width := 33,
    lines := ["  cycles total: " ++ alignRight 10 ("#" ++ toString cycle),
              "  drained: " ++ alignRight 15 (boolWord drained)] }

def directory (s : DirectoryStat) : Section :=
  { header := "directory", width := 40,
    lines := Operation.all.map (fun o => hitMiss o (s.hit.get o) (s.miss.get o)) ++
      ["  sub-block miss:   " ++ num 10 s.subBlockMiss,
       "  parallel request: " ++ num 10 s.parallelRequest,
       "  lock conflict:    " ++ num 10 s.lockConflict,
       "  early writeback:  " ++ num 10 s.earlyWriteback,
       "  final writeback:  " ++ num 10 s.finalWriteback,
       "  final eviction:   " ++ num 10 s.finalEviction] }

/-- The counters of one hierarchy level, summed over its caches; evictions and writebacks
of the drain count with the others. -/
structure LevelStat where
  level : Nat
  caches : Nat := 0
  accesses : Nat := 0
  hit : List Nat := [0, 0, 0, 0, 0]
  miss : List Nat := [0, 0, 0, 0, 0]
  invalidation : Nat := 0
  eviction : Nat := 0
  writeback : Nat := 0
  deriving DecidableEq, Repr, Inhabited

/-- The level's counters with one more cache's. -/
def LevelStat.absorb (l : LevelStat) (s : CacheStat) : LevelStat :=
  { l with caches := l.caches + 1, accesses := l.accesses + s.accesses,
           hit := List.zipWith (· + ·) l.hit s.hit.toList,
           miss := List.zipWith (· + ·) l.miss s.miss.toList,
           invalidation := l.invalidation + s.invalidation,
           eviction := l.eviction + s.eviction + s.finalEviction,
           writeback := l.writeback + s.writeback + s.finalWriteback }

/-- One summary per level present, lowest level first. -/
def levels (caches : List Cache) : List LevelStat :=
  let present := (caches.map (·.level)).mergeSort (· ≤ ·) |>.eraseDups
  present.map fun lv =>
    (caches.filter (·.level == lv)).foldl (fun l c => l.absorb c.stat) { level := lv }

/-- The section of a level; operations nobody issued there are left out. -/
def level (l : LevelStat) : Section :=
  { header := "hierarchy level " ++ toString l.level ++ " (" ++ toString l.caches ++ " caches)",
    width := 48,
    lines := [accessLine l.accesses (l.hit.foldl (· + ·) 0)] ++
      (Operation.all.filterMap fun o =>
        let h := l.hit.getD o.index 0
        let m := l.miss.getD o.index 0
        if h + m == 0 then none else some (hitMiss o h m)) ++
      ["  eviction " ++ toString l.eviction ++ " writeback " ++ toString l.writeback ++
        " invalidation " ++ toString l.invalidation] }

/-- The section of a cache's counters. -/
def cache (c : Cache) : Section :=
  let s := c.stat
  { header := "cache " ++ c.label, width := 64,
    lines := [accessLine s.accesses (total s.hit)] ++
      Operation.all.map (fun o =>
        hitMiss o (s.hit.get o) (s.miss.get o) ++ " wait avg " ++
          fixed 8 2 (average (s.wait.get o)) ++ " max " ++ num 8 (s.wait.get o).max) ++
      ["  sub-block miss: " ++ num 12 s.subBlockMiss,
       "  invalidation:   " ++ num 12 s.invalidation,
       "  eviction:       " ++ num 12 s.eviction,
       "  writeback:      " ++ num 12 s.writeback,
       "  final eviction: " ++ num 12 s.finalEviction,
       "  final writeback:" ++ num 12 s.finalWriteback,
       "  full mshr: request " ++ toString s.fullRequest ++ " writeback " ++
         toString s.fullWriteback ++ " prefetch " ++ toString s.fullPrefetch] }

/-- The section of a cache's line usage. -/
def usage (c : Cache) : Section :=
  let u := c.usage
  { header := c.label ++ " line usage predictor", width := 33,
    lines := ["  line hit:       " ++ num 16 u.lineHit,
              "  line miss:      " ++ num 16 u.lineMiss,
              "  sub-block miss: " ++ num 16 u.subBlockMiss,
              "  send writeback: " ++ num 16 u.sendWriteback,
              "  recv writeback: " ++ num 16 u.recvWriteback,
              "  eviction:       " ++ num 16 u.eviction,
              "  invalidation:   " ++ num 16 u.invalidation] }

/-- The section of a cache's prefetcher. -/
def prefetcher (label : String) (s : PrefetchStat) : Section :=
  { header := label ++ " prefetcher", width := 44,
    lines := ["  created:     " ++ num 12 s.created,
              "  dropped:     " ++ num 12 s.dropped ++ " (" ++
                fixed 8 3 (percent s.dropped (s.created + s.dropped)) ++ "%)",
              "  full buffer: " ++ num 12 s.fullBuffer,
              "  upstride:    " ++ num 12 s.upstride,
              "  downstride:  " ++ num 12 s.downstride,
              "  next line:   " ++ num 12 s.nextLine,
              "  steady:      " ++ num 12 s.steady,
              "  matches:     " ++ num 12 s.strideMatches] }

/-- The sections of a cache: counters, line usage, and the prefetcher if it counted. -/
def cacheSections (c : Cache) : List Section :=
  [cache c, usage c] ++
    (if c.prefetcher.stat == {} then [] else [prefetcher c.label c.prefetcher.stat])

def memory (m : Memory) : Section :=
  { header := "memory controller " ++ m.label, width := 40,
    lines := Operation.all.map (fun o => "  " ++ alignLeft 10 o.name ++ " " ++
        num 16 (m.stat.requests.get o)) ++
      ["  answers:    " ++ num 16 m.stat.answers,
       "  full queue: " ++ num 16 m.stat.fullQueue,
       "  age avg:    " ++ fixed 16 2 (average m.stat.age)] }

def core (c : Core) : Section :=
  let s := c.stat
  { header := "core " ++ c.label, width := 40,
    lines := [Operation.read, .inst, .write, .prefetch].map (fun o => "  " ++
        alignLeft 10 o.name ++ " " ++ num 16 (s.issued.get o)) ++
      ["  answers:    " ++ num 16 s.answers,
       "  rejected:   " ++ num 16 s.rejected,
       "  stalled:    " ++ num 16 s.outstandingFull,
       "  latency:    avg " ++ (average s.latency).toFixed 2 ++ " max " ++
         toString s.latency.max] }

def sections (m : Machine) : List Section :=
  let caches := m.caches.toList
  [simulator m.cycle m.drained, directory m.hierarchy.directory.stat] ++
    (levels caches).map level ++ caches.flatMap cacheSections ++
    m.outside.memories.toList.map memory ++ m.outside.cores.toList.map core

/-- The sections as text, with rules at most `maxWidth` wide. -/
def render (sections : List Section) (maxWidth : Nat) : String :=
  let widest := (sections.map fun s => Nat.max s.header.utf8ByteSize s.width).max?.getD 24
  let width := Nat.min widest (Nat.max maxWidth 24)
  center '=' width " cache hierarchy report " ++ "\n" ++
    String.join (sections.map fun s =>
      "[" ++ s.header ++ "]\n" ++ "\n".intercalate s.lines ++ "\n") ++
    fillWith '=' width

end Report

/-- The report of the machine, with rules at most `maxWidth` wide. -/
def Machine.report (m : Machine) (maxWidth : Nat) : String :=
  Report.render (Report.sections m) maxWidth

end CacheHierarchy
