import TransparentCa.Lib.AssocList
import TransparentCa.Lib.PyText

/- The values and exceptions of the devkit scripts: what `json.load` makes of a text, and
   the operations the scripts use on it without asking for its type first. A `dict` is the
   list of its entries in the order of insertion. -/
namespace Devkit
open Python

/-- What the scripts can be stopped by. `exception` is any other class under `Exception`. -/
inductive PyError where
  | systemExit (code : Int)
  | keyboardInterrupt
  | keyError
  | typeError
  | attributeError
  | indexError
  | valueError (message : Str)
  | overflowError
  | jsonDecodeError
  | unicodeError
  | osError
  | fileNotFoundError
  | calledProcessError (returncode : Int)
  | recursionError
  | exception
  deriving DecidableEq

namespace PyError

/-- `except Exception` catches it. -/
def isException : PyError → Bool
  | systemExit _ | keyboardInterrupt => false
  | _ => true

/-- `except ValueError` catches it. -/
def isValueError : PyError → Bool
  | valueError _ | jsonDecodeError | unicodeError => true
  | _ => false

end PyError

/-! ## Dictionaries -/

abbrev Dict (α : Type) := List (Str × α)

namespace Dict

variable {α : Type}

/-- `d[key] = value`. -/
def set (key : Str) (value : α) : Dict α → Dict α
  | [] => [(key, value)]
  | entry :: d => if entry.1 = key then (key, value) :: d else entry :: set key value d

/-- `d.update(other)`. -/
def update (d other : Dict α) : Dict α := other.foldl (fun d entry => d.set entry.1 entry.2) d

/-- `d[key]`. -/
def getItem (d : Dict α) (key : Str) : Except PyError α :=
  match d.lookup key with
  | some value => .ok value
  | none => .error .keyError

theorem lookup_set (key key' : Str) (value : α) (d : Dict α) :
    (d.set key value).lookup key' = if key' = key then some value else d.lookup key' := by
  induction d with
  | nil =>
    rw [set, List.lookup_cons, List.lookup_nil]
    split_ifs with h
    · rw [h, beq_self_eq_true]
    · rw [beq_false_of_ne h]
  | cons entry d ih =>
    unfold set
    split_ifs with hentry hkey hkey
    · rw [List.lookup_cons, hkey, beq_self_eq_true]
    · rw [List.lookup_cons, List.lookup_cons, beq_false_of_ne hkey,
        beq_false_of_ne (fun h => hkey (h.trans hentry))]
    · rw [List.lookup_cons, ih, if_pos hkey, beq_false_of_ne (fun h => hentry (h.symm.trans hkey))]
    · rw [List.lookup_cons, List.lookup_cons, ih, if_neg hkey]

theorem set_set (d : Dict α) (key : Str) (v w : α) :
    (d.set key v).set key w = d.set key w := by
  induction d with
  | nil =>
    show set key w [(key, v)] = [(key, w)]
    rw [set, if_pos rfl]
  | cons entry d ih =>
    by_cases h : entry.1 = key
    · rw [set, if_pos h, set, if_pos rfl, set, if_pos h]
    · rw [set, if_neg h, set, if_neg h, ih, set, if_neg h]

theorem map_set {β : Type} (f : α → β) (key : Str) (value : α) (d : Dict α) :
    (d.set key value).map (Prod.map id f) = set key (f value) (d.map (Prod.map id f)) := by
  induction d with
  | nil => rfl
  | cons entry d ih =>
    by_cases h : entry.1 = key
    · rw [set, if_pos h, List.map_cons, List.map_cons, set,
        if_pos (show (Prod.map id f entry).1 = key from h)]
      rfl
    · rw [set, if_neg h, List.map_cons, List.map_cons, set,
        if_neg (show (Prod.map id f entry).1 ≠ key from h), ih]

theorem mem_keys_set {key key' : Str} {value : α} {d : Dict α} :
    key' ∈ (d.set key value).map Prod.fst ↔ key' = key ∨ key' ∈ d.map Prod.fst := by
  induction d with
  | nil => exact List.mem_cons
  | cons entry d ih =>
    by_cases h : entry.1 = key
    · rw [set, if_pos h, List.map_cons, List.map_cons, List.mem_cons, List.mem_cons, h, ← or_assoc,
        or_self]
    · rw [set, if_neg h, List.map_cons, List.map_cons, List.mem_cons, List.mem_cons, ih,
        or_left_comm]

theorem nodup_keys_set {key : Str} {value : α} {d : Dict α}
    (h : (d.map Prod.fst).Nodup) : ((d.set key value).map Prod.fst).Nodup := by
  induction d with
  | nil => exact List.nodup_singleton key
  | cons entry d ih =>
    rw [List.map_cons, List.nodup_cons] at h
    by_cases hkey : entry.1 = key
    · rw [set, if_pos hkey, List.map_cons, List.nodup_cons, ← hkey]
      exact h
    · rw [set, if_neg hkey, List.map_cons, List.nodup_cons, mem_keys_set, not_or]
      exact ⟨⟨hkey, h.1⟩, ih h.2⟩

theorem getItem_eq_ok {d : Dict α} {key : Str} {value : α} :
    d.getItem key = .ok value ↔ d.lookup key = some value := by
  unfold getItem
  cases d.lookup key with
  | none => exact iff_of_false (fun h => by cases h) (fun h => by cases h)
  | some found =>
    constructor
    · exact fun h => congrArg some (Except.ok.inj h)
    · exact fun h => congrArg Except.ok (Option.some.inj h)

end Dict

/-! ## Values -/

/-- The values that can be in a set or the key of a `dict`. -/
inductive Scalar where
  | none
  | bool (b : Bool)
  | int (n : Int)
  | float (repr : Str)
  | str (s : Str)
  deriving DecidableEq

inductive Json where
  | scalar (v : Scalar)
  | array (items : List Json)
  | object (fields : List (Str × Json))

namespace Json

abbrev str (s : Str) : Json := .scalar (.str s)

/-- `type(value).__name__`. -/
def typeName : Json → Str
  | .scalar .none => py "NoneType"
  | .scalar (.bool _) => py "bool"
  | .scalar (.int _) => py "int"
  | .scalar (.float _) => py "float"
  | .scalar (.str _) => py "str"
  | .array _ => py "list"
  | .object _ => py "dict"

/-- `bool(value)`. -/
def truthy : Json → Bool
  | .scalar .none => false
  | .scalar (.bool b) => b
  | .scalar (.int n) => n ≠ 0
  | .scalar (.float repr) => repr ∉ [py "0.0", py "-0.0"]
  | .scalar (.str s) => s ≠ []
  | .array items => !items.isEmpty
  | .object fields => !fields.isEmpty

def isStr (key : Str) : Json → Bool
  | .scalar (.str s) => s = key
  | _ => false

/-- `key in value`. -/
def contains (key : Str) : Json → Except PyError Bool
  | .object fields => .ok (fields.lookup key).isSome
  | .array items => .ok (items.any (isStr key))
  | .scalar (.str s) => .ok (s.tails.any key.isPrefixOf)
  | .scalar _ => .error .typeError

/-- `value[key]`. -/
def getItem (key : Str) : Json → Except PyError Json
  | .object fields => Dict.getItem fields key
  | _ => .error .typeError

/-- `value.get(key, default)`. -/
def get (value : Json) (key : Str) (default : Json) : Except PyError Json :=
  match value with
  | .object fields => .ok ((fields.lookup key).getD default)
  | _ => .error .attributeError

/-- `value.items()`. -/
def items : Json → Except PyError (List (Str × Json))
  | .object fields => .ok fields
  | _ => .error .attributeError

/-- `hash(value)`, with the value that is its own key. -/
def hashable : Json → Except PyError Scalar
  | .scalar v => .ok v
  | _ => .error .typeError

theorem hashable_eq_ok {value : Json} {v : Scalar} : value.hashable = .ok v ↔ value = .scalar v := by
  constructor
  · intro h
    cases value with
    | scalar w =>
      cases h
      rfl
    | array items => cases h
    | object fields => cases h
  · rintro rfl
    rfl

end Json

/-- What comes after a step that returned. -/
theorem bind_eq_ok {ε α β : Type} {x : Except ε α} {f : α → Except ε β} {b : β} :
    (x >>= f) = .ok b ↔ ∃ a, x = .ok a ∧ f a = .ok b := by
  cases x with
  | error e => exact ⟨fun h => (by cases h), fun ⟨_, h, _⟩ => (by cases h)⟩
  | ok a =>
    constructor
    · intro h
      exact ⟨a, rfl, h⟩
    · rintro ⟨_, h, hf⟩
      cases h
      exact hf

theorem map_eq_ok {ε α β : Type} {x : Except ε α} {f : α → β} {b : β} :
    f <$> x = .ok b ↔ ∃ a, x = .ok a ∧ f a = b := by
  cases x with
  | error e => exact ⟨fun h => (by cases h), fun ⟨_, h, _⟩ => (by cases h)⟩
  | ok a =>
    constructor
    · intro h
      exact ⟨a, rfl, Except.ok.inj h⟩
    · rintro ⟨_, h, hf⟩
      cases h
      exact congrArg Except.ok hf

/-- A step that was made for every element was made for this one. -/
theorem mem_of_mapM_eq_ok {ε α β : Type} {l : List α} {f : α → Except ε β} {results : List β}
    (h : l.mapM f = .ok results) {a : α} (ha : a ∈ l) : ∃ b ∈ results, f a = .ok b := by
  induction l generalizing results with
  | nil => cases ha
  | cons head l ih =>
    rw [List.mapM_cons] at h
    obtain ⟨b, hb, h⟩ := bind_eq_ok.mp h
    obtain ⟨rest, hrest, h⟩ := bind_eq_ok.mp h
    obtain rfl := Except.ok.inj h
    rcases List.mem_cons.mp ha with rfl | ha
    · exact ⟨b, List.mem_cons_self, hb⟩
    · obtain ⟨c, hc, hfa⟩ := ih hrest ha
      exact ⟨c, List.mem_cons_of_mem b hc, hfa⟩

end Devkit
