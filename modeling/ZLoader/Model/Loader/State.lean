import ZLoader.Foundation.LittleEndian
import ZLoader.Model.Efi.Status

/-! # Memory, accesses and firmware services of the image loader

The loader works on two allocations: the buffer that holds the image file and the pages it loads
the image into. Each is a byte store indexed from the cursor of the file buffer, respectively from
the aligned start of the pages, so a pointer of the source is an allocation and an offset. Numeric
addresses are kept next to the stores because the source compares them.

Every access and every firmware call is recorded in program order. Two further logs record what
the relocation walk did: the fixup entries it applied and the blocks it finished.
-/

namespace ZLoader

/-- What the loader did to memory or asked of the firmware. -/
inductive Event where
  | readFile (window : Window)
  | writeFile (window : Window)
  | writeImage (window : Window)
  | allocatePages (address pages : UInt64)
  | freePages (address pages : UInt64)
  | allocatePool (address : UInt64)
  | freePool (address : UInt64)
  | installProtocols (handle loadedImage devicePath : UInt64)
deriving DecidableEq, Repr

/-- The two allocations. -/
structure Memory where
  file : ByteStore
  image : ByteStore

/-- One fixup entry of a relocation block, with the memory around its application. -/
structure FixupStep where
  page : UInt32
  entry : UInt16
  before : Memory
  after : Memory

/-- One finished relocation block: where it starts, the `size_of_block` the walk steps by and the
number of entries it went through. -/
structure BlockVisit where
  block : ℕ
  sizeOfBlock : ℕ
  entries : ℕ
deriving DecidableEq, Repr

structure LoaderState where
  memory : Memory
  trace : List Event
  fixups : List FixupStep
  visits : List BlockVisit

namespace LoaderState

/-- The state before anything has happened. -/
def start (memory : Memory) : LoaderState := ⟨memory, [], [], []⟩

def log (st : LoaderState) (event : Event) : LoaderState := { st with trace := st.trace ++ [event] }

/-- `memcpy` from the file buffer to the image. -/
def copyToImage (st : LoaderState) (target length origin : ℕ) : LoaderState :=
  { st with
    memory.image := (Patch.copy target length st.memory.file origin).apply st.memory.image
    trace := st.trace ++ [.readFile ⟨origin, length⟩, .writeImage ⟨target, length⟩] }

/-- `memset` on the image. -/
def fillImage (st : LoaderState) (target length : ℕ) (value : UInt8) : LoaderState :=
  { st with
    memory.image := (Patch.fill target length value).apply st.memory.image
    trace := st.trace ++ [.writeImage ⟨target, length⟩] }

@[simp] theorem log_memory (st : LoaderState) (event : Event) :
    (st.log event).memory = st.memory := rfl

@[simp] theorem log_trace (st : LoaderState) (event : Event) :
    (st.log event).trace = st.trace ++ [event] := rfl

end LoaderState

/-- The answers of the firmware during one load: the pages, the two pool blocks (`none` is a
failed allocation), and the status and handle of the protocol installation. -/
structure Services where
  allocatePages : Option UInt64
  mallocDevicePath : Option UInt64
  mallocLoadedImage : Option UInt64
  install : EfiStatus
  handle : UInt64
deriving DecidableEq, Repr

end ZLoader
