/-!
# Source ranges

Byte range, line and column of a node. Lines and columns start at one.
-/

namespace ArchLint

structure Span where
  startByte : Nat
  endByte : Nat
  line : Nat
  column : Nat
  deriving DecidableEq, Repr, Inhabited

namespace Span

/-- Bytes covered; a range that ends before it starts covers none. -/
def length (span : Span) : Nat :=
  span.endByte - span.startByte

def isEmpty (span : Span) : Bool :=
  span.length = 0

end Span

end ArchLint
