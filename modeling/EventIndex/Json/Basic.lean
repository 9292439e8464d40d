/-!
# JSON values

A number is kept as its text, so no digit is ever lost and numbers are equal when their texts are.
The fields of an object stand in some order; a value that was read from text has them sorted by
name, each name once.
-/

namespace EventIndex

inductive Json where
  | null
  | bool (b : Bool)
  | number (text : String)
  | string (text : String)
  | array (items : List Json)
  | object (fields : List (String × Json))
deriving Inhabited, Repr

namespace Json

mutual

def beq : Json → Json → Bool
  | null, null => true
  | bool a, bool b => a == b
  | number a, number b => a == b
  | string a, string b => a == b
  | array as, array bs => beqItems as bs
  | object as, object bs => beqFields as bs
  | _, _ => false

def beqItems : List Json → List Json → Bool
  | [], [] => true
  | a :: as, b :: bs => beq a b && beqItems as bs
  | _, _ => false

def beqFields : List (String × Json) → List (String × Json) → Bool
  | [], [] => true
  | (k, a) :: as, (l, b) :: bs => k == l && beq a b && beqFields as bs
  | _, _ => false

end

mutual

theorem beq_self : ∀ a : Json, beq a a = true
  | null => rfl
  | bool _ | number _ | string _ => by simp [beq]
  | array as => by simp [beq, beqItems_self as]
  | object as => by simp [beq, beqFields_self as]

theorem beqItems_self : ∀ as : List Json, beqItems as as = true
  | [] => rfl
  | a :: as => by simp [beqItems, beq_self a, beqItems_self as]

theorem beqFields_self : ∀ as : List (String × Json), beqFields as as = true
  | [] => rfl
  | (k, a) :: as => by simp [beqFields, beq_self a, beqFields_self as]

end

mutual

theorem eq_of_beq' : ∀ {a b : Json}, beq a b = true → a = b
  | null, b, h => by cases b <;> simp_all [beq]
  | bool _, b, h => by cases b <;> simp_all [beq]
  | number _, b, h => by cases b <;> simp_all [beq]
  | string _, b, h => by cases b <;> simp_all [beq]
  | array as, b, h => by
    cases b with
    | array bs => rw [@eq_of_beqItems as _ (by simpa [beq] using h)]
    | _ => simp [beq] at h
  | object as, b, h => by
    cases b with
    | object bs => rw [@eq_of_beqFields as _ (by simpa [beq] using h)]
    | _ => simp [beq] at h

theorem eq_of_beqItems : ∀ {as bs : List Json}, beqItems as bs = true → as = bs
  | [], bs, h => by cases bs <;> simp_all [beqItems]
  | a :: as, bs, h => by
    cases bs with
    | nil => simp [beqItems] at h
    | cons b bs =>
      simp only [beqItems, Bool.and_eq_true] at h
      rw [eq_of_beq' h.1, eq_of_beqItems h.2]

theorem eq_of_beqFields : ∀ {as bs : List (String × Json)}, beqFields as bs = true → as = bs
  | [], bs, h => by cases bs <;> simp_all [beqFields]
  | (k, a) :: as, bs, h => by
    cases bs with
    | nil => simp [beqFields] at h
    | cons b bs =>
      obtain ⟨l, b⟩ := b
      simp only [beqFields, Bool.and_eq_true, beq_iff_eq] at h
      rw [h.1.1, eq_of_beq' h.1.2, eq_of_beqFields h.2]

end

instance : BEq Json := ⟨beq⟩

instance : LawfulBEq Json where
  eq_of_beq := eq_of_beq'
  rfl := beq_self _

instance : DecidableEq Json := fun a b =>
  if h : a == b then isTrue (eq_of_beq h) else isFalse fun e => h (by simp [e])

/-- Puts a field where its name belongs among sorted fields, in place of one of the same name. -/
def insertField (name : String) (value : Json) : List (String × Json) → List (String × Json)
  | [] => [(name, value)]
  | (k, v) :: fields =>
    match compare name k with
    | .lt => (name, value) :: (k, v) :: fields
    | .eq => (name, value) :: fields
    | .gt => (k, v) :: insertField name value fields

/-- The value of the first field with this name. -/
def get? (name : String) : Json → Option Json
  | object fields => fields.lookup name
  | _ => none

mutual

/-- The same value with the fields of every object in order of their names. -/
def sorted : Json → Json
  | array items => array (sortedItems items)
  | object fields => object (sortedFields fields)
  | v => v

def sortedItems : List Json → List Json
  | [] => []
  | v :: vs => v.sorted :: sortedItems vs

def sortedFields : List (String × Json) → List (String × Json)
  | [] => []
  | (k, v) :: fields => insertField k v.sorted (sortedFields fields)

end

def ofNat (n : Nat) : Json :=
  number (toString n)

end Json

end EventIndex
