import CacheHierarchy.Packet
import CacheHierarchy.Policy
import CacheHierarchy.Text.Quoted

set_option autoImplicit false

/-! # Errors

Two kinds of failure. A configuration error rejects a hierarchy before it runs. A protocol
error is a violation of the coherence model found while it runs; there is no recovery from
it. Beside both, a word may overflow (`Word`), which stops the machine at once. Each error
has one message, written by `message`.
-/

namespace CacheHierarchy

inductive MshrRange where
  | request
  | writeback
  | prefetch
  deriving DecidableEq, Repr, Inhabited

def MshrRange.name : MshrRange → String
  | .request => "request"
  | .writeback => "writeback"
  | .prefetch => "prefetch"

/-- Why a configuration is rejected. -/
inductive ConfigError where
  /-- The line number is not a multiple of the associativity with a power of two as
  quotient. -/
  | setsNotPowerOfTwo (label : String) (lineNumber associativity : Nat)
  | lineSizeNotPowerOfTwo (lineSize : Nat)
  /-- The bank count is not a power of two, the bank number is not below it, or a banked
  cache has no bank field in its addresses. -/
  | wrongBanks (label : String) (bankNumber totalBanks : Nat)
  | emptyMshrRange (label : String) (range : MshrRange)
  | unimplementedReplacement (label : String) (policy : Replacement)
  | prefetchOnBankedCache (label : String)
  | zeroPrefetchDegree (label : String)
  | unknownCache (label : String)
  | duplicatedLabel (label : String)
  | noMemoryController
  /-- A cache that a core uses directly is not on level 1. -/
  | wrongHierarchyLevel (label : String)
  deriving DecidableEq, Repr

def ConfigError.message : ConfigError → String
  | .setsNotPowerOfTwo l n a =>
    l ++ ": wrong line number (" ++ toString n ++ ") or associativity (" ++ toString a ++ ")"
  | .lineSizeNotPowerOfTwo s => "line size " ++ toString s ++ " is not a power of two"
  | .wrongBanks l b t =>
    l ++ ": wrong number of banks (" ++ toString b ++ "/" ++ toString t ++ ")"
  | .emptyMshrRange l r => l ++ ": mshr " ++ r.name ++ " range should be bigger than zero"
  | .unimplementedReplacement l p => l ++ ": replacement policy " ++ p.name ++ " not implemented"
  | .prefetchOnBankedCache l => l ++ ": cannot use a multibanked cache with prefetch"
  | .zeroPrefetchDegree l => l ++ ": prefetch degree should be at least 1"
  | .unknownCache l => "unknown cache label " ++ Text.quote l
  | .duplicatedLabel l => "duplicated component label " ++ Text.quote l
  | .noMemoryController => "there must be at least one memory controller"
  | .wrongHierarchyLevel l => l ++ ": first level caches must have hierarchy level 1"

/-- A violation of the coherence model. -/
inductive ProtocolError where
  /-- A request from a higher level arrived with no directory line for its transaction. -/
  | missingDirectoryLine (cache : Nat) (packet : Packet)
  /-- A request entering the hierarchy already had a directory line. -/
  | unexpectedDirectoryLine (cache : Nat) (packet : Packet)
  /-- An answer came back to a cache that is not the latest requester. -/
  | wrongRequestOrder (cache found expected : Nat)
  | lostRequester (cache order : Nat)
  | lineVanished (cache : Nat) (addr : UInt64)
  | writebackFromInvalidLine (cache : Nat) (packet : Packet)
  | writebackLoop (cache : Nat)
  | evictLockedTag (cache : Nat) (addr : UInt64)
  | unwantedAnswer (component : Nat) (packet : Packet)
  | wrongDestination (component : Nat) (packet : Packet)
  | wrongBank (cache : Nat) (packet : Packet)
  | unsupportedReplacement (cache : Nat) (policy : Replacement)
  | noRoute (cache : Nat) (addr : UInt64)
  | unknownComponent (component : Nat)
  deriving DecidableEq, Repr

def ProtocolError.message : ProtocolError → String
  | .missingDirectoryLine c p =>
    "cache " ++ toString c ++ ": higher level request must have a directory line (" ++
      p.render ++ ")"
  | .unexpectedDirectoryLine c p =>
    "cache " ++ toString c ++ ": first level request must not have a directory line (" ++
      p.render ++ ")"
  | .wrongRequestOrder c f e =>
    "cache " ++ toString c ++ ": wrong cache request order " ++ toString f ++ " (expected " ++
      toString e ++ ")"
  | .lostRequester c o =>
    "cache " ++ toString c ++ ": could not find the previous requester of order " ++ toString o
  | .lineVanished c a =>
    "cache " ++ toString c ++ ": line " ++ Text.hex a.toNat ++ " not found after it was installed"
  | .writebackFromInvalidLine c p =>
    "cache " ++ toString c ++ ": sending a writeback of an invalid line (" ++ p.render ++ ")"
  | .writebackLoop c => "cache " ++ toString c ++ ": writeback received on the cache which started it"
  | .evictLockedTag c a =>
    "cache " ++ toString c ++ ": trying to evict a locked line with the requested tag " ++
      Text.hex a.toNat
  | .unwantedAnswer c p =>
    "component " ++ toString c ++ ": received a not wanted package (" ++ p.render ++ ")"
  | .wrongDestination c p =>
    "component " ++ toString c ++ ": received a package for another destination (" ++
      p.render ++ ")"
  | .wrongBank c p =>
    "cache " ++ toString c ++ ": received a package of another bank (" ++ p.render ++ ")"
  | .unsupportedReplacement c r =>
    "cache " ++ toString c ++ ": replacement policy " ++ r.name ++ " not implemented"
  | .noRoute c a => "cache " ++ toString c ++ ": no lower component owns " ++ Text.hex a.toNat
  | .unknownComponent c => "no component with id " ++ toString c

/-- Why a step of the machine stops: a protocol violation, or a word overflowing. -/
inductive Fault where
  | protocol (e : ProtocolError)
  | overflow (o : Overflow)
  deriving DecidableEq, Repr

def Fault.message : Fault → String
  | .protocol e => e.message
  | .overflow o => o.message

instance : Coe ProtocolError Fault := ⟨.protocol⟩

/-- Stop at the overflow of `r`, or go on with its value. -/
def Fault.check {m : Type → Type} [Monad m] [MonadExceptOf Fault m] {α : Type} :
    Except Overflow α → m α
  | .ok a => pure a
  | .error o => throwThe Fault (.overflow o)

/-- Why a cache cannot be built: its configuration is refused, or laying it out overflows a
word. -/
inductive BuildError where
  | config (e : ConfigError)
  | overflow (o : Overflow)
  deriving DecidableEq, Repr

def BuildError.message : BuildError → String
  | .config e => e.message
  | .overflow o => o.message

instance : Coe ConfigError BuildError := ⟨.config⟩

end CacheHierarchy
