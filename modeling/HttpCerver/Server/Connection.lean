import HttpCerver.Parse.Request
import HttpCerver.Server.Response

/-!
# The connection buffer

The model of `http_connection.c`.  The buffer is a block of memory of fixed
capacity whose first `bufferUsed` bytes count.  That the used part lies inside
the block is a field of the connection, so the subtractions below never wrap
around and every operation is obliged to keep it so.
-/

namespace HttpCerver.Connection

open HttpCerver.Bytes
open HttpCerver.Request
open HttpCerver.Response
open HttpCerver.System

/-- Subtraction of `size_t` values, which wraps around. -/
def sizeSub (left right : ℕ) : ℕ :=
  if right ≤ left then left - right else left + 2 ^ 64 - right

theorem sizeSub_of_le {left right : ℕ} (hle : right ≤ left) :
    sizeSub left right = left - right := if_pos hle

/-- `memcpy` and `memmove` into a block of memory. -/
def store (memory : List Byte) (offset : ℕ) (data : List Byte) : List Byte :=
  memory.take offset ++ data ++ memory.drop (offset + data.length)

theorem length_store {memory data : List Byte} {offset : ℕ}
    (hinside : offset + data.length ≤ memory.length) :
    (store memory offset data).length = memory.length := by
  simp only [store, List.length_append, List.length_take, List.length_drop]
  omega

/-- `http_connection_t`; the block has `bufferCapacity` bytes. -/
structure HttpConnection where
  buffer : List Byte
  bufferUsed : ℕ
  bufferCapacity : ℕ
  closeConnection : Bool
  response : HttpResponse
  length_buffer : buffer.length = bufferCapacity
  bufferUsed_le : bufferUsed ≤ bufferCapacity

/-- The bytes received and not yet consumed. -/
def HttpConnection.pending (connection : HttpConnection) : List Byte :=
  connection.buffer.take connection.bufferUsed

/-- A fresh connection, or `none` for `-1`.  The block starts out as zeros;
what it holds is never read. -/
def httpConnectionInit (bufferCapacity : ℕ) (w : World) :
    Option HttpConnection × World :=
  if bufferCapacity = 0 then (none, w)
  else
    match malloc w with
    | (false, w) => (none, w)
    | (true, w) =>
      (some
        { buffer := List.replicate bufferCapacity 0
          bufferUsed := 0
          bufferCapacity := bufferCapacity
          closeConnection := false
          response := httpResponseInit
          length_buffer := List.length_replicate
          bufferUsed_le := Nat.zero_le _ }, w)

def httpConnectionBufferSpace (connection : HttpConnection) : ℕ :=
  sizeSub connection.bufferCapacity connection.bufferUsed

/-- Appends to the used part, or `none` for `-1`. -/
def httpConnectionFeed (connection : HttpConnection) (data : List Byte) :
    Option HttpConnection :=
  if hfits : sizeSub connection.bufferCapacity connection.bufferUsed <
      data.length then
    none
  else
    have hinside : connection.bufferUsed + data.length ≤
        connection.bufferCapacity := by
      have hused := connection.bufferUsed_le
      rw [sizeSub_of_le hused] at hfits
      omega
    some
      { connection with
        buffer := store connection.buffer connection.bufferUsed data
        bufferUsed := connection.bufferUsed + data.length
        length_buffer := by
          rw [length_store (connection.length_buffer ▸ hinside),
            connection.length_buffer]
        bufferUsed_le := hinside }

def httpConnectionRequestReady (connection : HttpConnection) : Bool :=
  httpRequestComplete connection.pending

def httpConnectionRequestLength (connection : HttpConnection) : ℕ :=
  (httpFindHeaderEnd connection.pending).getD 0

/-- Drops bytes from the front; more than there are is ignored. -/
def httpConnectionConsume (connection : HttpConnection) (length : ℕ) :
    HttpConnection :=
  if hmore : connection.bufferUsed < length then connection
  else
    let remaining := sizeSub connection.bufferUsed length
    have hremaining : remaining ≤ connection.bufferCapacity := by
      have hused := connection.bufferUsed_le
      have hsub := sizeSub_of_le (Nat.le_of_not_lt hmore)
      omega
    { connection with
      buffer :=
        if 0 < remaining then
          store connection.buffer 0
            ((connection.buffer.drop length).take remaining)
        else
          connection.buffer
      bufferUsed := remaining
      length_buffer := by
        split_ifs
        · rw [length_store, connection.length_buffer]
          simp only [List.length_take, List.length_drop]
          have hlength := connection.length_buffer
          omega
        · exact connection.length_buffer
      bufferUsed_le := hremaining }

theorem length_pending (connection : HttpConnection) :
    connection.pending.length = connection.bufferUsed := by
  have hlength := connection.length_buffer
  have hused := connection.bufferUsed_le
  rw [HttpConnection.pending, List.length_take]
  omega

/-- A fresh connection is open and nothing is pending on it. -/
theorem httpConnectionInit_spec {capacity : ℕ} (hcapacity : capacity ≠ 0)
    (w : World) :
    ∃ mallocs, mallocs <:+ w.mallocs ∧
      ((∃ connection, httpConnectionInit capacity w =
            (some connection, { w with mallocs := mallocs }) ∧
          connection.pending = [] ∧ connection.bufferCapacity = capacity ∧
          connection.closeConnection = false) ∨
        false ∈ w.mallocs ∧ httpConnectionInit capacity w =
          (none, { w with mallocs := mallocs })) := by
  obtain ⟨mallocs, hworld, hsuffix, hfails⟩ := malloc_spec w
  refine ⟨mallocs, hsuffix, ?_⟩
  rw [httpConnectionInit]
  rw [if_neg hcapacity]
  generalize malloc w = result at hworld hfails
  obtain ⟨succeeds, w'⟩ := result
  dsimp only at hworld hfails
  subst hworld
  cases succeeds with
  | false => exact .inr ⟨hfails rfl, rfl⟩
  | true => exact .inl ⟨_, rfl, List.take_zero, rfl, rfl⟩

theorem httpConnectionBufferSpace_eq (connection : HttpConnection) :
    httpConnectionBufferSpace connection =
      connection.bufferCapacity - connection.pending.length := by
  rw [length_pending]
  exact sizeSub_of_le connection.bufferUsed_le

/-- A feed that fits appends its data to what is pending. -/
theorem httpConnectionFeed_eq_some {connection : HttpConnection}
    {data : List Byte}
    (hfits : data.length ≤ connection.bufferCapacity -
      connection.pending.length) :
    ∃ fed, httpConnectionFeed connection data = some fed ∧
      fed.pending = connection.pending ++ data ∧
      fed.bufferCapacity = connection.bufferCapacity ∧
      fed.closeConnection = connection.closeConnection := by
  have hlength := connection.length_buffer
  have hused := connection.bufferUsed_le
  rw [length_pending] at hfits
  have hspace : ¬ sizeSub connection.bufferCapacity connection.bufferUsed <
      data.length := by
    rw [sizeSub_of_le hused]
    omega
  rw [httpConnectionFeed, dif_neg hspace]
  refine ⟨_, rfl, ?_, rfl, rfl⟩
  simp only [HttpConnection.pending, store]
  rw [List.take_append_of_le_length (by simp; omega), List.take_of_length_le]
  simp

/-- A consume within what is pending removes it from the front. -/
theorem httpConnectionConsume_pending {connection : HttpConnection}
    {length : ℕ} (hlength : length ≤ connection.pending.length) :
    (httpConnectionConsume connection length).pending =
      connection.pending.drop length := by
  have hbuffer := connection.length_buffer
  have hused := connection.bufferUsed_le
  rw [length_pending] at hlength
  rw [httpConnectionConsume, dif_neg (Nat.not_lt.mpr hlength)]
  simp only [HttpConnection.pending, sizeSub_of_le hlength]
  rw [List.drop_take]
  split_ifs with hremaining
  · simp only [store, List.take_zero, List.nil_append]
    rw [List.take_append_of_le_length (by simp; omega),
      List.take_of_length_le (by simp)]
  · have hzero : connection.bufferUsed - length = 0 := by omega
    simp [hzero]

@[simp]
theorem httpConnectionConsume_closeConnection (connection : HttpConnection)
    (length : ℕ) :
    (httpConnectionConsume connection length).closeConnection =
      connection.closeConnection := by
  rw [httpConnectionConsume]
  split_ifs <;> rfl

@[simp]
theorem httpConnectionConsume_bufferCapacity (connection : HttpConnection)
    (length : ℕ) :
    (httpConnectionConsume connection length).bufferCapacity =
      connection.bufferCapacity := by
  rw [httpConnectionConsume]
  split_ifs <;> rfl

end HttpCerver.Connection
