import TransparentCa.Lib.Numeral
import TransparentCa.Proxy.Protocol

/- The address of the parent instance, read from the environment. `EnvGetVal` leaves the
   check of the text to `strtoul`: it looks at `errno` and at the number cut to 32 bits, but
   not at where the number ended. `strtoul` skips white space, takes a sign, negates after a
   minus, and reports nothing but a number past `ULONG_MAX`; whether a text without a number
   sets `errno` is left to the library. -/
namespace Proxy
open Numeral

/-- The bytes of a C string before its terminator. -/
structure CString where
  bytes : List UInt8
  zero_notMem : 0 ∉ bytes

/-- `getenv`. -/
abbrev Getenv := CString → Option CString

/-! ## strtoul -/

/-- `isspace` of the C locale. -/
def isspace (c : UInt8) : Bool := c = 0x20 || (0x09 ≤ c && c ≤ 0x0d)

def isdigit (c : UInt8) : Bool := 0x30 ≤ c && c ≤ 0x39

/-- The number that decimal digits write. -/
def decimal (digits : List UInt8) : Nat := value (digits.map (fun c => c.toNat - 0x30))

inductive Errno where
  | success
  | EINVAL
  | ERANGE
  deriving DecidableEq

/-- What a call returns, what it stores at `endptr`, and `errno` after it. -/
structure Strtoul where
  value : UInt64
  endptr : List UInt8
  errno : Errno
  deriving DecidableEq

def ULONG_MAX : UInt64 := 0xFFFFFFFFFFFFFFFF

def UINT_MAX : UInt32 := 0xFFFFFFFF

/-- A number as `unsigned long`, negated after a minus. -/
def unsignedLong (minus : Bool) (n : Nat) : UInt64 :=
  if minus then -UInt64.ofNat n else UInt64.ofNat n

/-- Whether there is a minus, and the text after the sign. -/
def afterSign : List UInt8 → Bool × List UInt8
  | c :: s => if c = 0x2d then (true, s) else if c = 0x2b then (false, s) else (false, c :: s)
  | [] => (false, [])

/-- `strtoul(nptr, &endptr, 10)` with `errno` zero before. `einval` says whether a text with
    nothing to convert sets it. -/
def strtoul (einval : Bool) (nptr : List UInt8) : Strtoul :=
  let signed := afterSign (nptr.dropWhile isspace)
  let digits := signed.2.takeWhile isdigit
  let rest := signed.2.dropWhile isdigit
  if digits = [] then ⟨0, nptr, if einval then .EINVAL else .success⟩
  else if ULONG_MAX.toNat < decimal digits then ⟨ULONG_MAX, rest, .ERANGE⟩
  else ⟨unsignedLong signed.1 (decimal digits), rest, .success⟩

/-! ## EnvGetVal -/

/-- `EnvGetVal`: the value of `val` after the call. -/
def envGetVal (einval : Bool) (getenv : Getenv) (env_name : Option CString) (val : UInt32) :
    UInt32 :=
  match env_name with
  | none => val
  | some env_name =>
    match getenv env_name with
    | none => val
    | some val_str =>
      let r := strtoul einval val_str.bytes
      let v := r.value.toUInt32
      if r.errno = .success ∧ v < UINT_MAX then v else val

/-- The bytes of a literal. -/
def ascii (s : String) : List UInt8 := s.toList.map (fun c => UInt8.ofNat c.toNat)

def kParentCidEnv : CString := ⟨ascii "PROXY_PARENT_CID", by decide⟩

def kParentPortEnv : CString := ⟨ascii "PROXY_PARENT_PORT", by decide⟩

def kDefaultParentCid : UInt32 := 3

def kDefaultParentPort : UInt32 := 8888

def AF_VSOCK : UInt16 := 40

/-- The fields of a `sockaddr_vm` that are set; the others are zero. -/
structure SockaddrVm where
  svm_family : UInt16
  svm_port : UInt32
  svm_cid : UInt32
  deriving DecidableEq

/-- `GetProxyVsockAddr`. -/
def getProxyVsockAddr (einval : Bool) (getenv : Getenv) : SockaddrVm :=
  let cid := envGetVal einval getenv (some kParentCidEnv) kDefaultParentCid
  let port := envGetVal einval getenv (some kParentPortEnv) kDefaultParentPort
  { svm_family := AF_VSOCK, svm_port := port, svm_cid := cid }

/-! ## What strtoul reads -/

/-- A sign, and whether it is a minus. -/
inductive Sign : Bool → List UInt8 → Prop
  | none : Sign false []
  | plus : Sign false [0x2b]
  | minus : Sign true [0x2d]

/-- `s` is white space, a sign, the digits and a rest that goes on with no digit. -/
def ReadsAs (s : List UInt8) (minus : Bool) (digits : List UInt8) : Prop :=
  ∃ space sign rest, s = space ++ (sign ++ (digits ++ rest)) ∧
    (∀ c ∈ space, isspace c = true) ∧ Sign minus sign ∧
    digits ≠ [] ∧ (∀ c ∈ digits, isdigit c = true) ∧ ∀ c ∈ rest.head?, isdigit c = false

theorem isdigit_iff {c : UInt8} : isdigit c = true ↔ 48 ≤ c.toNat ∧ c.toNat ≤ 57 := by
  rw [isdigit, Bool.and_eq_true, decide_eq_true_eq, decide_eq_true_eq, UInt8.le_iff_toNat_le,
    UInt8.le_iff_toNat_le]
  rfl

theorem isspace_iff {c : UInt8} :
    isspace c = true ↔ c.toNat = 32 ∨ 9 ≤ c.toNat ∧ c.toNat ≤ 13 := by
  rw [isspace, Bool.or_eq_true, Bool.and_eq_true, decide_eq_true_eq, decide_eq_true_eq,
    decide_eq_true_eq, UInt8.le_iff_toNat_le, UInt8.le_iff_toNat_le, ← UInt8.toNat_inj]
  rfl

theorem not_isspace_of_isdigit {c : UInt8} (h : isdigit c = true) : isspace c = false := by
  have hdigit := isdigit_iff.mp h
  exact Bool.eq_false_iff.mpr (fun hspace => by
    have hspace := isspace_iff.mp hspace
    omega)

theorem afterSign_of_isdigit {s : List UInt8} (h : ∀ c ∈ s.head?, isdigit c = true) :
    afterSign s = (false, s) := by
  cases s with
  | nil => rfl
  | cons c s =>
    have hc := isdigit_iff.mp (h c rfl)
    rw [afterSign, if_neg (fun h => by subst h; exact absurd hc (by decide)),
      if_neg (fun h => by subst h; exact absurd hc (by decide))]

theorem Sign.afterSign {minus : Bool} {sign s : List UInt8} (h : Sign minus sign)
    (hs : ∀ c ∈ s.head?, isdigit c = true) : Proxy.afterSign (sign ++ s) = (minus, s) := by
  cases h with
  | none => exact afterSign_of_isdigit hs
  | plus => rfl
  | minus => rfl

theorem exists_sign (s : List UInt8) :
    ∃ sign, Sign (afterSign s).1 sign ∧ s = sign ++ (afterSign s).2 := by
  cases s with
  | nil => exact ⟨[], .none, rfl⟩
  | cons c s =>
    rw [afterSign]
    split_ifs with hminus hplus
    · exact ⟨[0x2d], .minus, by rw [hminus]; rfl⟩
    · exact ⟨[0x2b], .plus, by rw [hplus]; rfl⟩
    · exact ⟨[], .none, rfl⟩

theorem Sign.not_isspace {minus : Bool} {sign s : List UInt8} (h : Sign minus sign)
    (hs : ∀ c ∈ s.head?, isdigit c = true) : ∀ c ∈ (sign ++ s).head?, isspace c = false := by
  cases h with
  | none => exact fun c hc => not_isspace_of_isdigit (hs c hc)
  | plus =>
    intro c hc
    cases hc
    rfl
  | minus =>
    intro c hc
    cases hc
    rfl

/-- The steps of `strtoul` find the one way in which the text can be read. -/
theorem readsAs_iff {s digits : List UInt8} {minus : Bool} :
    ReadsAs s minus digits ↔ digits ≠ [] ∧ minus = (afterSign (s.dropWhile isspace)).1 ∧
      digits = (afterSign (s.dropWhile isspace)).2.takeWhile isdigit := by
  constructor
  · intro ⟨space, sign, rest, hs, hspace, hsign, hne, hdigits, hrest⟩
    have hhead : ∀ c ∈ (digits ++ rest).head?, isdigit c = true := by
      obtain ⟨d, tail, hcons⟩ := List.exists_cons_of_ne_nil hne
      intro c hc
      rw [hcons] at hc
      obtain rfl : d = c := Option.some.inj hc
      exact hdigits d (hcons ▸ List.mem_cons_self)
    rw [hs, dropWhile_append_stop hspace (hsign.not_isspace hhead), hsign.afterSign hhead]
    exact ⟨hne, rfl, (takeWhile_append_stop hdigits hrest).symm⟩
  · intro ⟨hne, hminus, hdigits⟩
    obtain ⟨sign, hsign, hsplit⟩ := exists_sign (s.dropWhile isspace)
    refine ⟨s.takeWhile isspace, sign, (afterSign (s.dropWhile isspace)).2.dropWhile isdigit, ?_,
      fun c hc => List.mem_takeWhile_imp hc, hminus ▸ hsign, hne, ?_,
      head?_dropWhile_stop isdigit _⟩
    · rw [hdigits, List.takeWhile_append_dropWhile, ← hsplit, List.takeWhile_append_dropWhile]
    · intro c hc
      exact List.mem_takeWhile_imp (hdigits ▸ hc)

theorem ReadsAs.unique {s digits digits' : List UInt8} {minus minus' : Bool}
    (h : ReadsAs s minus digits) (h' : ReadsAs s minus' digits') :
    minus = minus' ∧ digits = digits' := by
  obtain ⟨-, hminus, hdigits⟩ := readsAs_iff.mp h
  obtain ⟨-, hminus', hdigits'⟩ := readsAs_iff.mp h'
  exact ⟨hminus.trans hminus'.symm, hdigits.trans hdigits'.symm⟩

theorem strtoul_of_readsAs {s digits : List UInt8} {minus : Bool} (h : ReadsAs s minus digits)
    (einval : Bool) :
    ∃ rest, strtoul einval s =
      if ULONG_MAX.toNat < decimal digits then ⟨ULONG_MAX, rest, .ERANGE⟩
      else ⟨unsignedLong minus (decimal digits), rest, .success⟩ := by
  obtain ⟨hne, hminus, hdigits⟩ := readsAs_iff.mp h
  refine ⟨(afterSign (s.dropWhile isspace)).2.dropWhile isdigit, ?_⟩
  dsimp only [strtoul]
  rw [← hminus, ← hdigits, if_neg hne]

theorem strtoul_of_not_readsAs {s : List UInt8}
    (h : ¬∃ minus digits, ReadsAs s minus digits) (einval : Bool) :
    strtoul einval s = ⟨0, s, if einval then .EINVAL else .success⟩ := by
  have hnil : (afterSign (s.dropWhile isspace)).2.takeWhile isdigit = [] :=
    by_contra (fun hne => h ⟨_, _, readsAs_iff.mpr ⟨hne, rfl, rfl⟩⟩)
  dsimp only [strtoul]
  rw [hnil, if_pos rfl]

/-! ## What is promised -/

/-- The number of a complete decimal numeral smaller than `UINT_MAX`. -/
def promised (s : List UInt8) : Option UInt32 :=
  if s ≠ [] ∧ (∀ c ∈ s, isdigit c = true) ∧ decimal s < UINT_MAX.toNat then
    some (UInt32.ofNat (decimal s))
  else none

/-- The value that the text overwrites `val` with. -/
def written (einval : Bool) (s : List UInt8) : Option UInt32 :=
  if (strtoul einval s).errno = .success ∧ (strtoul einval s).value.toUInt32 < UINT_MAX then
    some (strtoul einval s).value.toUInt32
  else none

/-- The text is passed over: there is no number and the library says so, or the number is past
    `ULONG_MAX`, or it is `UINT_MAX` modulo 2^32. -/
def PassedOver (einval : Bool) (s : List UInt8) : Prop :=
  (einval = true ∧ ¬∃ minus digits, ReadsAs s minus digits) ∨
    ∃ minus digits, ReadsAs s minus digits ∧ (2^64 ≤ decimal digits ∨
      (if minus then -(decimal digits : Int) else decimal digits) % 2^32 = 2^32 - 1)

theorem envGetVal_eq (einval : Bool) (getenv : Getenv) (env_name : CString) (val : UInt32) :
    envGetVal einval getenv (some env_name) val =
      ((getenv env_name).bind (fun val_str => written einval val_str.bytes)).getD val := by
  cases hget : getenv env_name with
  | none =>
    simp only [envGetVal, hget]
    rfl
  | some val_str =>
    simp only [envGetVal, hget, Option.bind_some, written]
    split_ifs <;> rfl

theorem readsAs_numeral {s : List UInt8} (hne : s ≠ []) (hdigits : ∀ c ∈ s, isdigit c = true) :
    ReadsAs s false s :=
  ⟨[], [], [], (List.append_nil s).symm, fun _ hc => absurd hc List.not_mem_nil, .none, hne,
    hdigits, fun _ hc => by cases hc⟩

/-- What is left of a number in an `unsigned int`. -/
theorem toNat_unsignedLong (minus : Bool) {n : Nat} (h : n < 2^64) :
    ((unsignedLong minus n).toUInt32.toNat : Int) =
      (if minus then -(n : Int) else n) % 2^32 := by
  have hn : (UInt64.ofNat n).toNat = n := UInt64.toNat_ofNat_of_lt' h
  cases minus with
  | false =>
    show (((UInt64.ofNat n).toUInt32.toNat : Nat) : Int) = (n : Int) % 2^32
    rw [UInt64.toNat_toUInt32, hn]
    omega
  | true =>
    show (((-UInt64.ofNat n).toUInt32.toNat : Nat) : Int) = -(n : Int) % 2^32
    have hsize : UInt64.size = 2^64 := rfl
    rw [UInt64.toNat_toUInt32, UInt64.toNat_neg, hn, hsize]
    omega

/-- A promised number is read as it is. -/
theorem written_of_promised {s : List UInt8} {n : UInt32} (h : promised s = some n)
    (einval : Bool) : written einval s = some n := by
  unfold promised at h
  split_ifs at h with hs
  obtain ⟨hne, hdigits, hlt⟩ := hs
  obtain rfl := Option.some.inj h
  obtain ⟨rest, hread⟩ := strtoul_of_readsAs (readsAs_numeral hne hdigits) einval
  have hmax : UINT_MAX.toNat = 2^32 - 1 := rfl
  have hulong : ULONG_MAX.toNat = 2^64 - 1 := rfl
  rw [if_neg (by omega)] at hread
  have hvalue : (unsignedLong false (decimal s)).toUInt32 = UInt32.ofNat (decimal s) := by
    apply UInt32.toNat_inj.mp
    have hcut := toNat_unsignedLong false (show decimal s < 2^64 by omega)
    rw [UInt32.toNat_ofNat_of_lt' (show decimal s < 2^32 by omega)]
    simp only [Bool.false_eq_true, if_false] at hcut
    omega
  have hsmall : UInt32.ofNat (decimal s) < UINT_MAX := by
    rw [UInt32.lt_iff_toNat_lt, UInt32.toNat_ofNat_of_lt' (show decimal s < 2^32 by omega)]
    exact hlt
  rw [written, hread]
  dsimp only
  rw [hvalue, if_pos ⟨rfl, hsmall⟩]

theorem written_eq_none_iff {einval : Bool} {s : List UInt8} :
    written einval s = none ↔ PassedOver einval s := by
  have hulong : ULONG_MAX.toNat = 2^64 - 1 := rfl
  by_cases hreads : ∃ minus digits, ReadsAs s minus digits
  · obtain ⟨minus, digits, hreads⟩ := hreads
    have hover : PassedOver einval s ↔ 2^64 ≤ decimal digits ∨
        (if minus then -(decimal digits : Int) else decimal digits) % 2^32 = 2^32 - 1 := by
      constructor
      · intro h
        rcases h with ⟨-, hno⟩ | ⟨minus', digits', hreads', h⟩
        · exact absurd ⟨minus, digits, hreads⟩ hno
        · obtain ⟨rfl, rfl⟩ := hreads.unique hreads'
          exact h
      · exact fun h => .inr ⟨minus, digits, hreads, h⟩
    obtain ⟨rest, hread⟩ := strtoul_of_readsAs hreads einval
    rw [hover, written, hread]
    by_cases hlarge : 2^64 ≤ decimal digits
    · rw [if_pos (show ULONG_MAX.toNat < decimal digits by omega)]
      exact iff_of_true rfl (.inl hlarge)
    · rw [if_neg (show ¬ULONG_MAX.toNat < decimal digits by omega)]
      have hcut := toNat_unsignedLong minus (show decimal digits < 2^64 by omega)
      have hbound := (unsignedLong minus (decimal digits)).toUInt32.toNat_lt
      have hmax : UINT_MAX.toNat = 2^32 - 1 := rfl
      dsimp only
      rw [← hcut, ite_eq_right_iff]
      simp only [true_and, reduceCtorEq, imp_false, hlarge, false_or, UInt32.lt_iff_toNat_lt, hmax]
      omega
  · rw [written, strtoul_of_not_readsAs hreads]
    have hover : PassedOver einval s ↔ einval = true := by
      constructor
      · intro h
        rcases h with ⟨h, -⟩ | ⟨minus, digits, h, -⟩
        · exact h
        · exact absurd ⟨minus, digits, h⟩ hreads
      · exact fun h => .inl ⟨h, hreads⟩
    rw [hover]
    cases einval with
    | false => exact iff_of_false (fun h => nomatch h) Bool.false_ne_true
    | true => exact iff_of_true rfl rfl

theorem written_eq_promised_iff {einval : Bool} {s : List UInt8} :
    written einval s = promised s ↔ (promised s).isSome ∨ PassedOver einval s := by
  cases h : promised s with
  | some n => exact iff_of_true (written_of_promised h einval) (.inl rfl)
  | none =>
    rw [written_eq_none_iff]
    exact ⟨.inr, fun h => h.resolve_left Bool.false_ne_true⟩

/-- The values that a target keeps or takes, over all targets. -/
theorem forall_getD_iff {a b : Option UInt32} : (∀ val, a.getD val = b.getD val) ↔ a = b := by
  constructor
  · intro h
    cases a with
    | none =>
      cases b with
      | none => rfl
      | some n => exact absurd (h (n + 1)) (by simp)
    | some m =>
      cases b with
      | none => exact absurd (h (m + 1)) (by simp)
      | some n => exact congrArg some (h 0)
  · intro h val
    rw [h]

/-- The target is overwritten as promised for every value of the variable if and only if the
    value is a numeral smaller than `UINT_MAX` or is passed over. -/
theorem envGetVal_iff (einval : Bool) (getenv : Getenv) (env_name : CString) :
    (∀ val, envGetVal einval getenv (some env_name) val =
        ((getenv env_name).bind (fun val_str => promised val_str.bytes)).getD val) ↔
      ∀ val_str ∈ getenv env_name,
        (promised val_str.bytes).isSome ∨ PassedOver einval val_str.bytes := by
  simp only [envGetVal_eq, forall_getD_iff]
  cases getenv env_name with
  | none => exact iff_of_true rfl (fun val_str h => by cases h)
  | some val_str =>
    rw [Option.bind_some, Option.bind_some, written_eq_promised_iff]
    constructor
    · intro h val_str' hmem
      obtain rfl := Option.some.inj hmem
      exact h
    · exact fun h => h val_str rfl

/-- Each part of the address is the default or the number promised for its variable. -/
theorem getProxyVsockAddr_eq {einval : Bool} {getenv : Getenv}
    (h : ∀ env_name ∈ [kParentCidEnv, kParentPortEnv], ∀ val_str ∈ getenv env_name,
      (promised val_str.bytes).isSome ∨ PassedOver einval val_str.bytes) :
    getProxyVsockAddr einval getenv =
      { svm_family := AF_VSOCK
        svm_port := ((getenv kParentPortEnv).bind (fun v => promised v.bytes)).getD kDefaultParentPort
        svm_cid := ((getenv kParentCidEnv).bind (fun v => promised v.bytes)).getD kDefaultParentCid } := by
  have hpart : ∀ env_name ∈ [kParentCidEnv, kParentPortEnv],
      (getenv env_name).bind (fun v => written einval v.bytes) =
        (getenv env_name).bind (fun v => promised v.bytes) := by
    intro env_name hmem
    cases hget : getenv env_name with
    | none => rfl
    | some val_str => exact written_eq_promised_iff.mpr (h env_name hmem val_str hget)
  rw [getProxyVsockAddr, envGetVal_eq, envGetVal_eq, hpart _ List.mem_cons_self,
    hpart _ (List.mem_cons_of_mem _ List.mem_cons_self)]

/-- 2^32 + 1, which is larger than an `unsigned int`, is taken for 1. -/
theorem not_envGetVal_oversized :
    ¬ ∀ (einval : Bool) (getenv : Getenv) (env_name : CString) (val : UInt32),
      envGetVal einval getenv (some env_name) val =
        ((getenv env_name).bind (fun val_str => promised val_str.bytes)).getD val :=
  fun h => absurd (h false (fun _ => some ⟨ascii "4294967297", by decide⟩) kParentCidEnv 3)
    (by decide +kernel)

end Proxy
