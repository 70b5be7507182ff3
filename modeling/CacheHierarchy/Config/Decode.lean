import CacheHierarchy.Config.Basic
import CacheHierarchy.Json.Schema

set_option autoImplicit false

/-! # Reading a configuration

The configuration file format: one object per record, with the member names below, the
enumerations written as their upper-case names, and the prefetcher as an object tagged by
its member `type` (`DISABLE` or `STRIDE`). Members of unknown names are ignored. Each format
is a `Json.Schema`: a configuration file is decoded as it is read, and a configuration given
as a value in memory is decoded from it.
-/

namespace CacheHierarchy

open Json

def Replacement.names : List (String × Replacement) :=
  [("LRU", .lru), ("DEAD_OR_LRU", .deadOrLru), ("INVALID_OR_LRU", .invalidOrLru),
   ("RANDOM", .random), ("FIFO", .fifo), ("LRF", .lrf)]

def Inclusion.names : List (String × Inclusion) :=
  [("NON_INCLUSIVE", .nonInclusive), ("INCLUSIVE_LLC", .inclusiveLlc),
   ("INCLUSIVE_ALL", .inclusiveAll)]

def Layout.names : List (String × Layout) :=
  [("TAG_INDEX_OFFSET", .tagIndexOffset), ("TAG_INDEX_BANK_OFFSET", .tagIndexBankOffset),
   ("TAG_BANK_INDEX_OFFSET", .tagBankIndexOffset)]

/-- The throttles; every field has a default. -/
def Throttles.schema : Schema Throttles :=
  Schema.record "struct ThrottleConfig"
    [Schema.field "send_answer" true Schema.u64 fun t x => { t with sendAnswer := x },
     Schema.field "send_request" true Schema.u64 fun t x => { t with sendRequest := x },
     Schema.field "recv_answer" true Schema.u64 fun t x => { t with recvAnswer := x },
     Schema.field "recv_read" true Schema.u64 fun t x => { t with recvRead := x },
     Schema.field "recv_write" true Schema.u64 fun t x => { t with recvWrite := x }] {}

/-- The fields of a stride prefetcher: table size, degree, search distance, next lines and
request buffer size. -/
def PrefetcherConfig.strideSchema : Schema (Nat × Nat × Nat × Nat × Nat) :=
  Schema.record "struct variant PrefetcherConfig::Stride"
    [Schema.field "stride_table_size" false Schema.usize fun (_, d, s, n, b) x => (x, d, s, n, b),
     Schema.field "prefetch_degree" false Schema.u32 fun (t, _, s, n, b) x => (t, x, s, n, b),
     Schema.field "search_distance" false Schema.u32 fun (t, d, _, n, b) x => (t, d, x, n, b),
     Schema.field "next_lines_prefetch" true Schema.u32 fun (t, d, s, _, b) x => (t, d, s, x, b),
     Schema.field "request_buffer_size" false Schema.usize fun (t, d, s, n, _) x => (t, d, s, n, x)]
    (0, 0, 0, 0, 0)

/-- A prefetcher, tagged by its member `type`. The rest of the value is read whole before the
variant decodes it. -/
def PrefetcherConfig.schema : Schema PrefetcherConfig :=
  Schema.tagged "PrefetcherConfig" "type"
    [("DISABLE", fun v => (fun () => .disabled) <$> emptyContent v),
     ("STRIDE", fun v => (fun (t, d, s, n, b) => .stride t d s n b) <$>
        PrefetcherConfig.strideSchema.ofValue .buffered v)]

/-- The line usage predictor: only `DISABLE` exists. -/
def Config.predictorSchema : Schema Unit := Schema.unitVariant [("DISABLE", ())]

def CacheConfig.schema : Schema CacheConfig :=
  Schema.record "struct CacheConfig"
    [Schema.field "label" false Schema.str fun c x => { c with label := x },
     Schema.field "hierarchy_level" false Schema.u32 fun c x => { c with level := x },
     Schema.field "bank_number" true Schema.u32 fun c x => { c with bankNumber := x },
     Schema.field "total_banks" true Schema.u32 fun c x => { c with totalBanks := x },
     Schema.field "address_mask" true (Schema.unitVariant Layout.names)
       fun c x => { c with layout := x },
     Schema.field "line_number" false Schema.u32 fun c x => { c with lineNumber := x },
     Schema.field "associativity" false Schema.u32 fun c x => { c with associativity := x },
     Schema.field "replacement" true (Schema.unitVariant Replacement.names)
       fun c x => { c with replacement := x },
     Schema.field "penalty_read" false Schema.u64 fun c x => { c with penaltyRead := x },
     Schema.field "penalty_write" false Schema.u64 fun c x => { c with penaltyWrite := x },
     Schema.field "mshr_request_size" false Schema.usize fun c x => { c with mshrRequest := x },
     Schema.field "mshr_writeback_size" false Schema.usize
       fun c x => { c with mshrWriteback := x },
     Schema.field "mshr_prefetch_size" false Schema.usize fun c x => { c with mshrPrefetch := x },
     Schema.field "lower_level" true (Schema.list Schema.str) fun c x => { c with lowerLevel := x },
     Schema.field "prefetcher" true PrefetcherConfig.schema fun c x => { c with prefetcher := x },
     Schema.field "line_usage_predictor" true Config.predictorSchema fun c _ => c,
     Schema.field "random_seed" true Schema.u64 fun c x => { c with randomSeed := x },
     Schema.field "throttle" true Throttles.schema fun c x => { c with throttle := x }]
    {}

def DirectoryConfig.schema : Schema DirectoryConfig :=
  Schema.record "struct DirectoryConfig"
    [Schema.field "inclusiveness" true (Schema.unitVariant Inclusion.names)
       fun d x => { d with inclusion := x },
     Schema.field "generate_llc_writeback" true Schema.boolean
       fun d x => { d with llcWriteback := x },
     Schema.field "generate_non_llc_writeback" true Schema.boolean
       fun d x => { d with nonLlcWriteback := x }]
    {}

/-- The memory controllers; every field has a default. -/
def MemoryConfig.schema : Schema MemoryConfig :=
  Schema.record "struct MainMemoryConfig"
    [Schema.field "controllers" true Schema.usize fun m x => { m with controllers := x },
     Schema.field "latency" true Schema.u64 fun m x => { m with latency := x },
     Schema.field "buffer_size" true Schema.usize fun m x => { m with bufferSize := x },
     Schema.field "send_latency" true Schema.u64 fun m x => { m with sendLatency := x }]
    {}

def CoreConfig.schema : Schema CoreConfig :=
  Schema.record "struct CoreConfig"
    [Schema.field "label" false Schema.str fun c x => { c with label := x },
     Schema.field "data_cache" false Schema.str fun c x => { c with dataCache := x },
     Schema.field "inst_cache" true (Schema.optional Schema.str) fun c x => { c with instCache := x },
     Schema.field "max_outstanding_reads" true Schema.usize
       fun c x => { c with maxOutstanding := x }]
    {}

def Config.schema : Schema Config :=
  Schema.record "struct SimConfig"
    [Schema.field "line_size" false Schema.u32 fun c x => { c with lineSize := x },
     Schema.field "heartbeat" true Schema.u64 fun c x => { c with heartbeat := x },
     Schema.field "periodic_check" true Schema.u64 fun c x => { c with periodicCheck := x },
     Schema.field "max_alive_time" true Schema.u64 fun c x => { c with maxAliveTime := x },
     Schema.field "interconnect_latency" true Schema.u64
       fun c x => { c with interconnectLatency := x },
     Schema.field "directory" true DirectoryConfig.schema fun c x => { c with directory := x },
     Schema.field "caches" false (Schema.list CacheConfig.schema) fun c x => { c with caches := x },
     Schema.field "main_memory" true MemoryConfig.schema fun c x => { c with memory := x },
     Schema.field "cores" false (Schema.list CoreConfig.schema) fun c x => { c with cores := x }]
    {}

/-- Read a configuration file's text, decoding it as it is read. -/
def Config.read (text : String) : Except String Config := Stream.document Config.schema.ofText text

end CacheHierarchy
