import CacheHierarchy.Cache.Basic

set_option autoImplicit false

/-! # Views of a cache

Two texts describe a cache for a reader: its valid lines, and its MSHR. Each starts with a
header line and has one line per item, every line ending in a newline.

* The lines view gives the label, level, bank, sets and ways, then each valid line at its
  set (right-aligned in five places) and way (in two).
* The MSHR view gives the label, the packets held over the slots, and the three range
  sizes, then each packet in born order with its slot (left-aligned in three places).
-/

namespace CacheHierarchy

namespace Cache

open Text

/-- The valid lines of the cache. -/
def linesView (c : Cache) : String :=
  let header := c.label ++ " (level " ++ toString c.level ++ ", bank " ++ toString c.bank ++
    "/" ++ toString c.banks ++ ", " ++ toString c.setCount ++ " sets x " ++ toString c.ways ++
    " ways)\n"
  let rows := c.lines.positions.filterMap fun (i, w, l) =>
    if l.status == .i then none
    else some ("  [" ++ alignRight 5 (toString i) ++ "][" ++ alignRight 2 (toString w) ++ "] " ++
      l.render ++ "\n")
  header ++ String.join rows

/-- The packets of the MSHR, oldest first. -/
def mshrView (c : Cache) : String :=
  let header := c.label ++ " mshr " ++ toString c.mshr.count ++ "/" ++
    toString c.mshr.capacity ++ " (request " ++ toString c.mshr.requestSize ++ ", writeback " ++
    toString c.mshr.writebackSize ++ ", prefetch " ++ toString c.mshr.prefetchSize ++ ")\n"
  header ++ String.join (c.mshr.entries.map fun (s, p) =>
    "  #" ++ alignLeft 3 (toString s) ++ " " ++ p.render ++ "\n")

end Cache

end CacheHierarchy
