/-
Values of JSON, and what becomes of them when they are decoded and encoded.

Numbers of a text are exact; a decoder that knows no better type makes each of them the
nearest 64-bit float, and the encoder writes the shortest decimal that is read as that
float again.  Everything else of a value is kept.

* `shortest`, `round_shortest` — the decimal of a float;
* `decode`, `marshal` — a value that is decoded, and encoded again;
* `marshal_decode_iff` — the value is kept exactly if each of its numbers is the shortest
  decimal of a float;
* `decode_marshal_decode` — decoding once more changes nothing;
* `recodeMembers`, `recodeMembers_iff` — an object that is decoded into a structure and
  encoded again, and when its members are kept.
-/
import AcuGateway.Lib.Float64
import AcuGateway.Lib.Text

/-! ### Decimals -/

namespace Float64

theorem div_ulp_le (q : ℚ) : q / ulp q ≤ 2 ^ 53 := by
  have hulp : 0 < ulp q := by unfold ulp; positivity
  have hhigh : q < 2 ^ (Int.log 2 q + 1) := Int.lt_zpow_succ_log_self (b := 2) (by decide) q
  rw [div_le_iff₀ hulp]
  refine hhigh.le.trans ?_
  unfold ulp
  rw [show (2 : ℚ) ^ 53 = 2 ^ (53 : ℤ) from rfl, ← zpow_add₀ two_ne_zero]
  exact zpow_le_zpow_right₀ one_le_two (by omega)

/-- A rounded number is not rounded again. -/
theorem round_round (q : ℚ) : round (round q) = round q := by
  have hpos : ∀ q : ℚ, 0 ≤ q → round (round q) = round q := by
    intro q hq
    rcases hq.eq_or_lt with rfl | hq
    · simp [round, roundEven]
    · -- the mantissa of a rounded number fits in 53 bits
      have hnonneg : 0 ≤ roundEven (q / ulp q) := by
        have h := roundEven_mono (div_nonneg hq.le (by unfold ulp; positivity) : 0 ≤ q / ulp q)
        rwa [show (0 : ℚ) = ((0 : ℤ) : ℚ) by rfl, roundEven_intCast] at h
      have hle : roundEven (q / ulp q) ≤ 2 ^ 53 := by
        have h := roundEven_mono (div_ulp_le q)
        rwa [show (2 : ℚ) ^ 53 = ((2 ^ 53 : ℤ) : ℚ) by norm_num, roundEven_intCast] at h
      have hsame := round_mul_zpow (roundEven (q / ulp q)) (le_max_right (Int.log 2 q - 52) (-1074))
      rw [float64_eq_self hnonneg hle] at hsame
      rw [show round q = roundEven (q / ulp q) * ulp q from if_pos hq.le]
      exact hsame
  rcases le_total 0 q with hq | hq
  · exact hpos q hq
  · have h := hpos (-q) (by linarith)
    rw [round_neg, round_neg] at h
    exact neg_injective h

/-- The decimal nearest to `x` with `d + 1` digits, or the one on the other side of `x`, if it
is read as `x`. -/
def decimal (x : ℚ) (d : ℕ) : Option ℚ :=
  let unit : ℚ := 10 ^ (Int.log 10 x - d)
  let near := roundEven (x / unit) * unit
  [near, if near ≤ x then near + unit else near - unit].find? fun y => round y = x

/-- The shortest decimal that is read as the float `x`. -/
def shortest (x : ℚ) : ℚ :=
  if 0 ≤ x then ((List.range 17).findSome? (decimal x)).getD x
  else -(((List.range 17).findSome? (decimal (-x))).getD (-x))

theorem round_getD_decimal {x : ℚ} (hx : round x = x) :
    round (((List.range 17).findSome? (decimal x)).getD x) = x := by
  rcases h : (List.range 17).findSome? (decimal x) with _ | y
  · exact hx
  · obtain ⟨d, -, hd⟩ := List.exists_of_findSome?_eq_some h
    have hread := List.find?_some (p := fun y => decide (round y = x)) hd
    exact of_decide_eq_true hread

theorem round_shortest {x : ℚ} (hx : round x = x) : round (shortest x) = x := by
  unfold shortest
  split_ifs
  · exact round_getD_decimal hx
  · rw [round_neg, round_getD_decimal (by rw [round_neg, hx]), neg_neg]

end Float64

open Float64

/-! ### Values -/

/-- A value.  The members of an object are in the order of their names, one for each name. -/
inductive Json
  | null
  | bool (b : Bool)
  | number (q : ℚ)
  | string (text : String)
  | array (elements : List Json)
  | object (members : List (String × Json))

namespace Json

mutual

/-- The numbers of a value. -/
def numbers : Json → List ℚ
  | .number q => [q]
  | .array elements => elementNumbers elements
  | .object members => memberNumbers members
  | _ => []

def elementNumbers : List Json → List ℚ
  | [] => []
  | v :: elements => numbers v ++ elementNumbers elements

def memberNumbers : List (String × Json) → List ℚ
  | [] => []
  | (_, v) :: members => numbers v ++ memberNumbers members

end

variable (f g : ℚ → ℚ)

mutual

/-- The value with other numbers. -/
def mapNumbers : Json → Json
  | .number q => .number (f q)
  | .array elements => .array (mapElements elements)
  | .object members => .object (mapMembers members)
  | .null => .null
  | .bool b => .bool b
  | .string text => .string text

def mapElements : List Json → List Json
  | [] => []
  | v :: elements => mapNumbers v :: mapElements elements

def mapMembers : List (String × Json) → List (String × Json)
  | [] => []
  | (name, v) :: members => (name, mapNumbers v) :: mapMembers members

end

/-! Each fact about `mapNumbers` is proved together with its forms for elements and members. -/

mutual

theorem mapNumbers_mapNumbers : ∀ v : Json, (v.mapNumbers g).mapNumbers f = v.mapNumbers (f ∘ g)
  | .number _ => rfl
  | .array elements => congrArg array (mapElements_mapElements elements)
  | .object members => congrArg object (mapMembers_mapMembers members)
  | .null => rfl
  | .bool _ => rfl
  | .string _ => rfl

theorem mapElements_mapElements :
    ∀ l : List Json, mapElements f (mapElements g l) = mapElements (f ∘ g) l
  | [] => rfl
  | v :: l => congrArg₂ List.cons (mapNumbers_mapNumbers v) (mapElements_mapElements l)

theorem mapMembers_mapMembers :
    ∀ l : List (String × Json), mapMembers f (mapMembers g l) = mapMembers (f ∘ g) l
  | [] => rfl
  | (name, v) :: l =>
    congrArg₂ List.cons (congrArg (name, ·) (mapNumbers_mapNumbers v)) (mapMembers_mapMembers l)

end

mutual

/-- A value is kept exactly if its numbers are. -/
theorem mapNumbers_eq_self_iff : ∀ v : Json, v.mapNumbers f = v ↔ ∀ q ∈ v.numbers, f q = q
  | .number q => by simp [mapNumbers, numbers]
  | .array elements => by simp [mapNumbers, numbers, mapElements_eq_self_iff elements]
  | .object members => by simp [mapNumbers, numbers, mapMembers_eq_self_iff members]
  | .null => by simp [mapNumbers, numbers]
  | .bool _ => by simp [mapNumbers, numbers]
  | .string _ => by simp [mapNumbers, numbers]

theorem mapElements_eq_self_iff :
    ∀ l : List Json, mapElements f l = l ↔ ∀ q ∈ elementNumbers l, f q = q
  | [] => by simp [mapElements, elementNumbers]
  | v :: l => by
    simp [mapElements, elementNumbers, mapNumbers_eq_self_iff v, mapElements_eq_self_iff l,
      or_imp, forall_and]

theorem mapMembers_eq_self_iff :
    ∀ l : List (String × Json), mapMembers f l = l ↔ ∀ q ∈ memberNumbers l, f q = q
  | [] => by simp [mapMembers, memberNumbers]
  | (name, v) :: l => by
    simp [mapMembers, memberNumbers, mapNumbers_eq_self_iff v, mapMembers_eq_self_iff l,
      or_imp, forall_and]

end

/-! ### Decoding and encoding -/

variable (v : Json)

/-- The numbers are in the range of floats; a value with another one is refused. -/
def InRange : Prop := ∀ q ∈ v.numbers, |Float64.round q| < 2 ^ 1024
deriving Decidable

/-- The value in memory: each number is the nearest float. -/
def decode : Json := v.mapNumbers Float64.round

/-- The value of the text that the encoder makes of a value in memory. -/
def marshal : Json := v.mapNumbers shortest

/-- Each number is the shortest decimal of a float. -/
def NumbersKept : Prop := ∀ q ∈ v.numbers, shortest (Float64.round q) = q
deriving Decidable

theorem marshal_decode_iff : v.decode.marshal = v ↔ v.NumbersKept := by
  rw [marshal, decode, mapNumbers_mapNumbers, mapNumbers_eq_self_iff]
  rfl

theorem decode_marshal_decode : v.decode.marshal.decode = v.decode := by
  simp only [decode, marshal, mapNumbers_mapNumbers]
  congr 1
  funext q
  exact round_shortest (round_round q)

/-- The value after one more way through memory. -/
def recast : Json := v.decode.marshal

theorem decode_recast : v.recast.decode = v.decode := decode_marshal_decode v

theorem recast_recast : v.recast.recast = v.recast := congrArg marshal v.decode_recast

end Json

example : (Json.object [("n", .number (1 / 10)), ("x", .number 1e21)]).NumbersKept ∧
    ¬ (Json.array [.number 9007199254740993]).NumbersKept := by
  decide +kernel

/-- A text: as it was given, or the encoding of a value. -/
inductive JsonText
  | plain (text : String)
  | encoded (value : Json)

/-! ### Structures -/

namespace Json

/-- The fields of structures: texts that are left out if they are empty, that are always
written, or that may be null; values that are left out if they are null; and texts of JSON
that are taken over. -/
inductive FieldKind
  | text
  | requiredText
  | optionalText
  | any
  | raw

/-- What is written of a value in memory that a field is read from; the decoder refuses a
value of another type. -/
def FieldKind.recode : FieldKind → Json → Option (Option Json)
  | .text, .string s => some (if s = "" then none else some (.string s))
  | .text, .null => some none
  | .requiredText, .string s => some (some (.string s))
  | .requiredText, .null => some (some (.string ""))
  | .optionalText, .string s => some (some (.string s))
  | .optionalText, .null => some none
  | .any, .null => some none
  | .any, v => some (some v)
  | .raw, v => some (some v)
  | _, _ => none

/-- The values that a field keeps. -/
def FieldKind.keeps : FieldKind → Json → Bool
  | .text, .string s => s ≠ ""
  | .requiredText, .string _ => true
  | .optionalText, .string _ => true
  | .any, .null => false
  | .any, _ => true
  | .raw, _ => true
  | _, _ => false

theorem FieldKind.recode_iff (kind : FieldKind) (v : Json) :
    (∃ w, kind.recode v.decode = some (some w) ∧ w.marshal = v) ↔
      kind.keeps v = true ∧ v.NumbersKept := by
  have hkept := v.marshal_decode_iff
  cases kind <;> cases v <;>
    simp_all [FieldKind.recode, FieldKind.keeps, decode, marshal, mapNumbers, NumbersKept, numbers]

section Members

variable {κ : Type} (recode : κ → Json → Option (Option Json)) (fields : List (String × κ))

/-- The field that a name is read into: the one of that name, or else one of that name in
other letters. -/
def fieldOf (name : String) : Option (String × κ) :=
  (fields.find? fun field => field.1 = name).or
    (fields.find? fun field => Text.equalFold field.1 name)

/-- What is written of a member; one of an unknown name is dropped. -/
def recodeMember (member : String × Json) : Option (Option (String × Json)) :=
  match fieldOf fields member.1 with
  | none => some none
  | some field => (recode field.2 member.2).map fun written => written.map (field.1, ·)

def recodeMembers : List (String × Json) → Option (List (String × Json))
  | [] => some []
  | member :: members => (recodeMember recode fields member).bind fun written =>
    (recodeMembers members).map (written.toList ++ ·)

/-- The member is known by its name, and its field keeps the value. -/
def MemberKept (member : String × Json) : Prop :=
  ∃ kind, fieldOf fields member.1 = some (member.1, kind) ∧
    ∃ w, recode kind member.2.decode = some (some w) ∧ w.marshal = member.2

variable {recode fields} {members l : List (String × Json)}

theorem length_recodeMembers_le (h : recodeMembers recode fields members = some l) :
    l.length ≤ members.length := by
  induction members generalizing l with
  | nil =>
    cases h
    exact Nat.le_refl 0
  | cons member members ih =>
    obtain ⟨written, -, h⟩ := Option.bind_eq_some_iff.mp h
    obtain ⟨rest, hrest, rfl⟩ := Option.map_eq_some_iff.mp h
    have hle := ih hrest
    cases written with
    | none => exact Nat.le_succ_of_le hle
    | some w => exact Nat.succ_le_succ hle

theorem length_mapMembers (f : ℚ → ℚ) : (mapMembers f members).length = members.length := by
  induction members with
  | nil => rfl
  | cons member members ih => simp [mapMembers, ih]

theorem recodeMember_iff (member : String × Json) :
    (∃ w, recodeMember recode fields (member.1, member.2.decode) = some (some w) ∧
      (w.1, w.2.marshal) = member) ↔ MemberKept recode fields member := by
  unfold recodeMember MemberKept
  rcases fieldOf fields member.1 with _ | ⟨name, kind⟩
  · simp
  · constructor
    · rintro ⟨w, hw, hsame⟩
      obtain ⟨written, hwritten, hw⟩ := Option.map_eq_some_iff.mp hw
      obtain ⟨v, rfl, rfl⟩ := Option.map_eq_some_iff.mp hw
      obtain ⟨hname, hvalue⟩ := Prod.mk.inj (hsame : (name, v.marshal) = (member.1, member.2))
      exact ⟨kind, congrArg (fun name => some (name, kind)) hname, v, hwritten, hvalue⟩
    · rintro ⟨_, ⟨⟩, w, hw, hsame⟩
      exact ⟨(member.1, w), by simp [hw], Prod.ext rfl hsame⟩

/-- The members of an object are kept exactly if each of them is. -/
theorem recodeMembers_iff :
    (∃ l, recodeMembers recode fields (mapMembers Float64.round members) = some l ∧
      mapMembers shortest l = members) ↔ ∀ member ∈ members, MemberKept recode fields member := by
  induction members with
  | nil => exact iff_of_true ⟨[], rfl, rfl⟩ (by simp)
  | cons member members ih =>
    rw [List.forall_mem_cons, ← ih, ← recodeMember_iff]
    constructor
    · rintro ⟨l, hl, hsame⟩
      obtain ⟨written, hwritten, hl⟩ := Option.bind_eq_some_iff.mp hl
      obtain ⟨rest, hrest, rfl⟩ := Option.map_eq_some_iff.mp hl
      cases written with
      | none =>
        -- a member that is dropped is missed at the end
        have hle := length_recodeMembers_le hrest
        have hlength := congrArg List.length hsame
        simp only [Option.toList_none, List.nil_append, length_mapMembers, List.length_cons]
          at hle hlength
        omega
      | some w =>
        obtain ⟨hfirst, hothers⟩ := List.cons.inj hsame
        exact ⟨⟨w, hwritten, hfirst⟩, rest, hrest, hothers⟩
    · rintro ⟨⟨w, hwritten, hfirst⟩, rest, hrest, hothers⟩
      refine ⟨w :: rest, ?_, List.cons_eq_cons.mpr ⟨hfirst, hothers⟩⟩
      rw [mapMembers, recodeMembers]
      simp only [Option.bind_eq_some_iff, Option.map_eq_some_iff]
      exact ⟨some w, hwritten, rest, hrest, rfl⟩

end Members

end Json
