import Mathlib.Logic.Function.Basic
import Mathlib.Tactic.SplitIfs

/-!
# Objects used as maps

An object literal that is used as a map from strings has its own entries and inherits the members of
`Object.prototype`. A lookup finds the own entry if there is one, else the inherited member.
-/

namespace Records

/-- The names of the members of `Object.prototype`. -/
def inheritedNames : List String :=
  ["constructor", "hasOwnProperty", "isPrototypeOf", "propertyIsEnumerable", "toLocaleString",
    "toString", "valueOf", "__proto__", "__defineGetter__", "__defineSetter__", "__lookupGetter__",
    "__lookupSetter__"]

/-- An object, by its own entries. -/
structure Record (α : Type*) where
  /-- The own members. -/
  own : String → Option α

/-- What a lookup finds. -/
inductive Entry (α : Type*) where
  /-- An own member. -/
  | own (a : α)
  /-- A member every object inherits. -/
  | inherited
  /-- No member. -/
  | absent
deriving DecidableEq

variable {α : Type*}

/-- The literal `{}`. -/
def Record.empty : Record α := ⟨fun _ => none⟩

/-- A literal with these entries. -/
def Record.ofList (entries : List (String × α)) : Record α := ⟨fun key => entries.lookup key⟩

/-- What reading a key gives. -/
def Record.read (r : Record α) (key : String) : Entry α :=
  match r.own key with
  | some a => .own a
  | none => if key ∈ inheritedNames then .inherited else .absent

/-- The literal `{ ...r, [key]: a }`. A computed key makes an own entry for every name. -/
def Record.set (r : Record α) (key : String) (a : α) : Record α :=
  ⟨Function.update r.own key (some a)⟩

@[simp]
theorem Record.read_set_self (r : Record α) (key : String) (a : α) :
    (r.set key a).read key = .own a := by
  simp [Record.read, Record.set]

@[simp]
theorem Record.read_set_of_ne {key key' : String} (h : key' ≠ key) (r : Record α) (a : α) :
    (r.set key a).read key' = r.read key' := by
  simp [Record.read, Record.set, Function.update_of_ne h]

theorem Record.read_empty_ordinary {key : String} (h : key ∉ inheritedNames) :
    (Record.empty : Record α).read key = .absent := if_neg h

theorem Record.read_empty_inherited {key : String} (h : key ∈ inheritedNames) :
    (Record.empty : Record α).read key = .inherited := if_pos h

/-- What is read from a literal as its own is one of its entries. -/
theorem Record.mem_of_read_ofList {entries : List (String × α)} {key : String} {a : α}
    (h : (Record.ofList entries).read key = .own a) : (key, a) ∈ entries := by
  unfold Record.read at h
  rw [show (Record.ofList entries).own key = entries.lookup key from rfl] at h
  cases hlookup : entries.lookup key with
  | none =>
    rw [hlookup] at h
    dsimp only at h
    split_ifs at h
  | some b =>
    rw [hlookup, Entry.own.injEq] at h
    obtain ⟨front, back, rfl, -⟩ := List.lookup_eq_some_iff.1 hlookup
    rw [← h]
    exact List.mem_append_right front List.mem_cons_self

/-- An ordinary name is never inherited. -/
theorem Record.read_ne_inherited {key : String} (h : key ∉ inheritedNames) (r : Record α) :
    r.read key ≠ .inherited := by
  unfold Record.read
  rw [if_neg h]
  cases r.own key <;> simp

end Records
