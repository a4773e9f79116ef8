import Mathlib

/- File status flags of a socket and the two `fcntl` operations on them. `F_SETFL` belongs to the
   kernel and is a parameter, with what its manual says of the words that `F_GETFL` returns; what
   it does with other words, with −1 in particular, is left open. -/
namespace Proxy

/-- An `int` of flags. -/
abbrev Flags := BitVec 32

def O_RDWR : Flags := 2#32

def O_APPEND : Flags := 0x400#32

def O_NONBLOCK : Flags := 0x800#32

def O_ASYNC : Flags := 0x2000#32

def O_DIRECT : Flags := 0x4000#32

def O_NOATIME : Flags := 0x40000#32

/-- A flag of the descriptor, for `F_SETFD`. As a status flag it is an access mode. -/
def FD_CLOEXEC : Flags := 1#32

structure Fcntl where
  /-- The words that `F_GETFL` returns for sockets. -/
  Status : Flags → Prop
  /-- `F_SETFL` of `arg` where the flags are `fl`: the flags after it. They are `fl` when it
  fails. -/
  setfl : (fl arg : Flags) → Flags
  status_new : Status O_RDWR
  status_nonblock {fl : Flags} : Status fl → Status (fl ||| O_NONBLOCK)
  status_block {fl : Flags} : Status fl → Status (fl &&& ~~~O_NONBLOCK)
  setfl_status {fl arg : Flags} : Status fl → Status arg → setfl fl arg = arg
  /-- The access mode in the argument is ignored. -/
  setfl_access (fl arg : Flags) : setfl fl (arg ||| FD_CLOEXEC) = setfl fl arg

/-! ## Linux -/

namespace Linux

/-- What `F_SETFL` changes. -/
def SETFL_MASK : Flags := O_APPEND ||| O_NONBLOCK ||| O_ASYNC ||| O_DIRECT ||| O_NOATIME

/-- A socket is open for reading and writing, and takes all flags but `O_DIRECT`. -/
def Status (fl : Flags) : Prop :=
  fl &&& ~~~(O_APPEND ||| O_NONBLOCK ||| O_ASYNC ||| O_NOATIME) = O_RDWR

instance : DecidablePred Status := fun fl =>
  inferInstanceAs (Decidable (fl &&& ~~~(O_APPEND ||| O_NONBLOCK ||| O_ASYNC ||| O_NOATIME) = O_RDWR))

def setfl (fl arg : Flags) : Flags :=
  if arg &&& O_DIRECT = 0 then (arg &&& SETFL_MASK) ||| (fl &&& ~~~SETFL_MASK) else fl

/-- Where the flags that can be set are masked out, every status reads alike. -/
theorem Status.and {fl m : Flags} (h : Status fl)
    (hm : ~~~(O_APPEND ||| O_NONBLOCK ||| O_ASYNC ||| O_NOATIME) &&& m = m) :
    fl &&& m = O_RDWR &&& m := by
  calc fl &&& m
      = fl &&& (~~~(O_APPEND ||| O_NONBLOCK ||| O_ASYNC ||| O_NOATIME) &&& m) := by rw [hm]
    _ = O_RDWR &&& m := by rw [← BitVec.and_assoc, show fl &&& _ = O_RDWR from h]

theorem status_nonblock {fl : Flags} (h : Status fl) : Status (fl ||| O_NONBLOCK) := by
  unfold Status at h ⊢
  rw [BitVec.and_or_distrib_right, h]
  rfl

theorem status_block {fl : Flags} (h : Status fl) : Status (fl &&& ~~~O_NONBLOCK) := by
  unfold Status at h ⊢
  rw [BitVec.and_assoc]
  exact h

theorem setfl_status {fl arg : Flags} (h : Status fl) (harg : Status arg) :
    setfl fl arg = arg := by
  have hdirect : arg &&& O_DIRECT = 0 := harg.and rfl
  have hkept : fl &&& ~~~SETFL_MASK = arg &&& ~~~SETFL_MASK := by
    rw [h.and rfl, harg.and rfl]
  unfold setfl
  rw [if_pos hdirect, hkept, ← BitVec.and_or_distrib_left]
  exact BitVec.and_allOnes

theorem setfl_access (fl arg : Flags) : setfl fl (arg ||| FD_CLOEXEC) = setfl fl arg := by
  have hmask (m : Flags) (hm : FD_CLOEXEC &&& m = 0) :
      (arg ||| FD_CLOEXEC) &&& m = arg &&& m := by
    rw [BitVec.and_or_distrib_right, hm]
    exact BitVec.or_zero
  unfold setfl
  rw [hmask O_DIRECT rfl, hmask SETFL_MASK rfl]

def fcntl : Fcntl where
  Status := Status
  setfl := setfl
  status_new := rfl
  status_nonblock := status_nonblock
  status_block := status_block
  setfl_status := setfl_status
  setfl_access := setfl_access

theorem setfl_direct (fl : Flags) {arg : Flags} (h : arg &&& O_DIRECT ≠ 0) :
    fcntl.setfl fl arg = fl :=
  if_neg h

end Linux

end Proxy
