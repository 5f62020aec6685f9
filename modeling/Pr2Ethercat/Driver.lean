import Mathlib.Data.List.Nodup
import Mathlib.Logic.Function.Basic
import Pr2Ethercat.Wire

/-!
# The driver's globals

`master_driver.cpp` and `wg05.h` keep everything in namespace-level variables.
`Driver` is those variables; the functions of the later files take one and
return the changed one.

Two of them, `num_slaves` and `slave_handles`, are written during start-up
only and come with facts every loop of the driver leans on: the handle list is
never longer than `num_slaves` (`getSlaveHandles` may stop early, it never
overshoots), handles are non-`NULL` and name different slaves, and a ring has
at most `2 ^ 16` slaves because ring positions are 16 bit (`EC_UINT`). They
are bundled with these facts in `SlaveTable`, so a table that breaks them
cannot be built; `Startup` constructs the one `getSlaveHandles` leaves behind.
-/

namespace Pr2Ethercat

open ByteArea

/-- `num_slaves` and `slave_handles`. -/
structure SlaveTable where
  numSlaves : Nat
  slaveHandles : List Nat
  length_le : slaveHandles.length ≤ numSlaves
  numSlaves_le : numSlaves ≤ 2 ^ 16
  nodup : slaveHandles.Nodup
  nonNull : ∀ sh ∈ slaveHandles, sh ≠ NULL

/-- The driver's global variables. `slaves` is what the handlers point to;
`mem` is the memory the three buffer pointers point into, of which
`new unsigned char[]` handed out `masterBufferAlloc` bytes at `masterBuffer`. -/
structure Driver where
  table : SlaveTable
  wg05SlaveHandles : List Nat
  startAddress : BitVec 32
  slaves : Nat → SlaveHandler
  mem : Area
  masterBuffer : Nat
  masterBufferSize : Nat
  masterBufferAlloc : Nat
  thisBuffer : Nat
  prevBuffer : Nat

/-- The globals once the slaves have been gathered and before anything else
has run: the initialisers of `master_driver.cpp` and `wg05.h`. -/
def Driver.gathered (table : SlaveTable) (slaves : Nat → SlaveHandler) (mem : Area) : Driver where
  table := table
  wg05SlaveHandles := []
  startAddress := 0x00010000
  slaves := slaves
  mem := mem
  masterBuffer := NULL
  masterBufferSize := 0
  masterBufferAlloc := 0
  thisBuffer := NULL
  prevBuffer := NULL

/-- Number of turns of every loop over `slave_handles`. -/
def Driver.numHandles (d : Driver) : Nat := d.table.slaveHandles.length

/-- `WG05_PRODUCT_CODE`. -/
def wg05ProductCode : BitVec 32 := 6805005

/-- `sh->get_product_code() == WG05_PRODUCT_CODE`. -/
def isWG05 (slaves : Nat → SlaveHandler) (sh : Nat) : Bool :=
  (slaves sh).productCode == wg05ProductCode

end Pr2Ethercat
