namespace MuQuinet.Builds

/-- What the sources leave to the build: whether an assertion that is false stops the
process, and whether `Pcb::bind`, an `int` function that ends without a `return`, comes
back to its caller. -/
structure Build where
  asserts : Bool
  bindReturns : Bool
deriving DecidableEq, Repr

namespace Build

/-- `CMAKE_BUILD_TYPE=Debug`: no `NDEBUG`, and code that is not optimised. -/
def debug : Build :=
  { asserts := true, bindReturns := true }

/-- `-O3 -DNDEBUG`, which is the default.  The compiler takes the end of `bind` as never
reached, and lets it run into the code that follows. -/
def release : Build :=
  { asserts := false, bindReturns := false }

end Build

end MuQuinet.Builds
