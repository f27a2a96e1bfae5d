import Base128.Progress

/-! # Decoding from the front

* `readFront` — `decode_prefix`: the value at the front, with its length.
* `decode` — `decode_one_with`: the value at the front and the bytes after it. Under the
  default settings this is `decode_one`.
* `decodeFirst` — `unpack_one_with`, which decodes the first of several buffers.
* `decodeChain` — `decode` on `bytes`, then on what it left over, and so on.

A fault's position counts from the front of the bytes that were given.
-/

namespace Base128

def readFront (settings : Settings) (bytes : Bytes) : Except Fault Reading :=
  Progress.scan settings {} bytes

def decode (settings : Settings) (bytes : Bytes) : Except Fault (UInt64 × Bytes) :=
  (readFront settings bytes).map fun reading => (reading.value, bytes.drop reading.length)

def decodeFirst (settings : Settings) (buffers : List Bytes) : Except Fault (UInt64 × Bytes) :=
  match buffers with
  | [] => .error (.missingArgument 0)
  | bytes :: _ => decode settings bytes

/-- A reading occupies at least one byte and no more than there are. -/
theorem length_of_readFront {settings : Settings} {bytes : Bytes} {reading : Reading}
    (h : readFront settings bytes = .ok reading) :
    0 < reading.length ∧ reading.length ≤ bytes.length := by
  have hscan := Progress.length_of_scan h
  simp only [Nat.zero_add] at hscan
  exact hscan

/-- What `decode` leaves over is shorter than what it was given. -/
theorem length_of_decode {settings : Settings} {bytes rest : Bytes} {value : UInt64}
    (h : decode settings bytes = .ok (value, rest)) : rest.length < bytes.length := by
  unfold decode at h
  cases hread : readFront settings bytes with
  | error fault => simp [hread, Except.map] at h
  | ok reading =>
    have hlength := length_of_readFront hread
    simp only [hread, Except.map, Except.ok.injEq, Prod.mk.injEq] at h
    rw [← h.2, List.length_drop]
    omega

/-- Each value with the bytes after it, and the fault of the last call. There is one, at
the latest when nothing is left over. -/
def decodeChain (settings : Settings) (bytes : Bytes) : List (UInt64 × Bytes) × Fault :=
  match h : decode settings bytes with
  | .error fault => ([], fault)
  | .ok (value, rest) =>
    have := length_of_decode h
    let (links, fault) := decodeChain settings rest
    ((value, rest) :: links, fault)
termination_by bytes.length

end Base128
