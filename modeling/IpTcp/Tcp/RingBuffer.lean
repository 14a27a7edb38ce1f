import IpTcp.Tcp.Types

/-! The third-party ring buffer, as the package relies on it: a FIFO of capacity
`BufferSize` that stores the part of a write that fits. The model is generic in
the buffer; a list of bounded length is the instance that runs. -/

set_option autoImplicit false

namespace IpTcp.Tcp

inductive RingErr where
  | errIsFull
  | errTooManyDataToWrite
  | errIsEmpty
  deriving DecidableEq, Repr

def RingErr.ofWrite (len free : Nat) : Option RingErr :=
  if len = 0 then none
  else if free = 0 then some .errIsFull
  else if free < len then some .errTooManyDataToWrite
  else none

/-- `ringbuffer.New(BufferSize)` with its `Write` and `Read`. `content` lists the
stored bytes, oldest first; `read` takes the length of the slice to fill. -/
class RingBuffer (Buffer : Type) where
  new : Buffer
  write : Buffer → List Byte → Buffer × Nat × Option RingErr
  read : Buffer → Nat → Buffer × List Byte × Option RingErr
  content : Buffer → List Byte
  content_new : content new = []
  content_length_le : ∀ buffer, (content buffer).length ≤ bufferSize
  write_content : ∀ buffer data, content (write buffer data).1 =
    content buffer ++ data.take (bufferSize - (content buffer).length)
  write_count : ∀ buffer data, (write buffer data).2.1 =
    min data.length (bufferSize - (content buffer).length)
  write_error : ∀ buffer data, (write buffer data).2.2 =
    RingErr.ofWrite data.length (bufferSize - (content buffer).length)
  read_content : ∀ buffer n, content (read buffer n).1 = (content buffer).drop n
  read_bytes : ∀ buffer n, (read buffer n).2.1 = (content buffer).take n
  read_error : ∀ buffer n, (read buffer n).2.2 =
    if n ≠ 0 ∧ content buffer = [] then some .errIsEmpty else none

namespace RingBuffer

variable {Buffer : Type} [RingBuffer Buffer]

def length (buffer : Buffer) : Nat := (content buffer).length
def free (buffer : Buffer) : Nat := bufferSize - (content buffer).length
def isEmpty (buffer : Buffer) : Bool := (content buffer).isEmpty
def isFull (buffer : Buffer) : Bool := (content buffer).length == bufferSize

theorem length_add_free (buffer : Buffer) :
    (content buffer).length + free buffer = bufferSize := by
  have := content_length_le buffer
  unfold free
  omega

theorem content_write (buffer : Buffer) (data : List Byte) :
    content (write buffer data).1 = content buffer ++ data.take (free buffer) :=
  write_content buffer data

theorem content_write_of_le (buffer : Buffer) (data : List Byte) (fits : data.length ≤ free buffer) :
    content (write buffer data).1 = content buffer ++ data := by
  rw [content_write, List.take_of_length_le fits]

theorem write_error_of_le (buffer : Buffer) (data : List Byte) (fits : data.length ≤ free buffer) :
    (write buffer data).2.2 = none := by
  rw [write_error]
  unfold RingErr.ofWrite
  unfold free at fits
  split
  · rfl
  · rw [if_neg (by omega), if_neg (by omega)]

theorem write_error_of_lt (buffer : Buffer) (data : List Byte) (excess : free buffer < data.length) :
    ∃ err, (write buffer data).2.2 = some err := by
  rw [write_error]
  unfold RingErr.ofWrite
  unfold free at excess
  rw [if_neg (by omega), if_pos excess]
  split
  · exact ⟨_, rfl⟩
  · exact ⟨_, rfl⟩

theorem free_write_add {buffer : Buffer} {data : List Byte} (fits : data.length ≤ free buffer) :
    free (write buffer data).1 + data.length = free buffer := by
  have before := length_add_free buffer
  have after := length_add_free (write buffer data).1
  rw [content_write_of_le buffer data fits, List.length_append] at after
  omega

theorem free_le_read (buffer : Buffer) (n : Nat) : free buffer ≤ free (read buffer n).1 := by
  unfold free
  rw [read_content, List.length_drop]
  omega

end RingBuffer

/-! ## The list instance -/

def Fifo : Type := { bytes : List Byte // bytes.length ≤ bufferSize }

namespace Fifo

def space (buffer : Fifo) : Nat := bufferSize - buffer.val.length

def write (buffer : Fifo) (data : List Byte) : Fifo × Nat × Option RingErr :=
  (⟨buffer.val ++ data.take buffer.space, by
      have := buffer.property
      simp only [space, List.length_append, List.length_take]
      omega⟩,
    min data.length buffer.space, RingErr.ofWrite data.length buffer.space)

def read (buffer : Fifo) (n : Nat) : Fifo × List Byte × Option RingErr :=
  (⟨buffer.val.drop n, by
      have := buffer.property
      simp only [List.length_drop]
      omega⟩,
    buffer.val.take n, if n ≠ 0 ∧ buffer.val = [] then some .errIsEmpty else none)

instance : RingBuffer Fifo where
  new := ⟨[], Nat.zero_le _⟩
  write := write
  read := read
  content buffer := buffer.val
  content_new := rfl
  content_length_le buffer := buffer.property
  write_content _ _ := rfl
  write_count _ _ := rfl
  write_error _ _ := rfl
  read_content _ _ := rfl
  read_bytes _ _ := rfl
  read_error _ _ := rfl

end Fifo

end IpTcp.Tcp
