/-
Header values by a token mapping.

A mapping has for tokens of a header the tokens that replace them.  Three of its keys control the
mapping itself: `*`, `$append` and `$keep_only_declared`.  The tokens of the header come from the
client, and each of them is looked up in the mapping, whatever it is.

* `resolveHeaderOverrideValueByMapping` — the resolution;
* `declaredTokens` — what is left if only declared tokens are looked up;
* `resolves_declared` — both agree as long as the client sends no control key;
* `wildcard_requested` — a client that asks for the wildcard by its key.
-/
import AcuGateway.Lib.Text

open List
open Text (split trimSpace)

/-- A value of a mapping. -/
inductive MappingValue
  | null
  | bool (b : Bool)
  | text (raw : String)
  | list (items : List MappingValue)

def splitHeaderListValue (raw : String) : List String :=
  ((split raw ",").map trimSpace).filter (· ≠ "")

mutual

def parseHeaderReplacementTokens : MappingValue → List String
  | .null => []
  | .bool b => [toString b]
  | .text raw => splitHeaderListValue raw
  | .list items => (parseItems items).eraseDups

def parseItems : List MappingValue → List String
  | [] => []
  | item :: items => parseHeaderReplacementTokens item ++ parseItems items

end

/-- A mapping: its keys, and the value under each. -/
structure HeaderMapping where
  keys : List String
  value : String → MappingValue

namespace HeaderMapping

variable (mapping : HeaderMapping) (sourceValue : Option String) (token : String)

def get? (key : String) : Option MappingValue :=
  if key ∈ mapping.keys then some (mapping.value key) else none

def parseHeaderAppendTokens : List String :=
  ((mapping.get? "$append").map parseHeaderReplacementTokens).getD []

def parseHeaderKeepOnlyDeclared : Bool :=
  match mapping.get? "$keep_only_declared" with
  | some (.bool b) => b
  | _ => false

/-- The tokens for one token of the header. -/
def replacementTokens : List String :=
  match (mapping.get? token).or
      (if mapping.parseHeaderKeepOnlyDeclared then none else mapping.get? "*") with
  | some replacementRaw => parseHeaderReplacementTokens replacementRaw
  | none => if mapping.parseHeaderKeepOnlyDeclared then [] else [token]

/-- The header value of a list of tokens. -/
def joined (resultTokens : List String) : Option String :=
  if resultTokens = [] then none else some (",".intercalate resultTokens)

def sourceTokens : List String := (sourceValue.map splitHeaderListValue).getD []

def resolveHeaderOverrideValueByMapping : Except String (Option String) :=
  if mapping.keys = [] then .error "header value mapping cannot be empty"
  else
    .ok (joined
      ((sourceTokens sourceValue).flatMap mapping.replacementTokens ++
        mapping.parseHeaderAppendTokens).eraseDups)

/-! ### Declared tokens -/

def controlKeys : List String := ["*", "$append", "$keep_only_declared"]

/-- What a token is replaced by if only declared ones are looked up. -/
def declared : List String :=
  if token ∈ mapping.keys ∧ token ∉ controlKeys then
    parseHeaderReplacementTokens (mapping.value token)
  else if mapping.parseHeaderKeepOnlyDeclared then []
  else ((mapping.get? "*").map parseHeaderReplacementTokens).getD [token]

def declaredTokens : List String :=
  ((sourceTokens sourceValue).flatMap mapping.declared ++ mapping.parseHeaderAppendTokens).eraseDups

variable {mapping sourceValue token}

theorem replacementTokens_of_mem (h : token ∈ mapping.keys) :
    mapping.replacementTokens token = parseHeaderReplacementTokens (mapping.value token) := by
  simp [replacementTokens, get?, h]

theorem replacementTokens_eq (h : token ∈ mapping.keys → token ∈ controlKeys →
      token = "*" ∧ mapping.parseHeaderKeepOnlyDeclared = false) :
    mapping.replacementTokens token = mapping.declared token := by
  by_cases hkey : token ∈ mapping.keys
  · rw [replacementTokens_of_mem hkey]
    by_cases hcontrol : token ∈ controlKeys
    · obtain ⟨rfl, hkeep⟩ := h hkey hcontrol
      simp [declared, get?, hkey, hcontrol, hkeep]
    · simp [declared, hkey, hcontrol]
  · cases hkeep : mapping.parseHeaderKeepOnlyDeclared with
    | true => simp [replacementTokens, declared, get?, hkey, hkeep]
    | false =>
      by_cases hwildcard : "*" ∈ mapping.keys
      · simp [replacementTokens, declared, get?, hkey, hkeep, hwildcard]
      · simp [replacementTokens, declared, get?, hkey, hkeep, hwildcard]

/-- With the flag, tokens come from declared entries or are appended. -/
theorem mem_declaredTokens (hkeep : mapping.parseHeaderKeepOnlyDeclared = true)
    (h : token ∈ mapping.declaredTokens sourceValue) :
    token ∈ mapping.parseHeaderAppendTokens ∨ ∃ key ∈ mapping.keys, key ∉ controlKeys ∧
      token ∈ parseHeaderReplacementTokens (mapping.value key) := by
  rw [declaredTokens, mem_eraseDups, mem_append, mem_flatMap] at h
  rcases h with ⟨key, -, htoken⟩ | happend
  · rw [declared] at htoken
    split_ifs at htoken with hkey
    · exact .inr ⟨key, hkey.1, hkey.2, htoken⟩
    · cases htoken
  · exact .inl happend

/-- **Only declared tokens are applied**, as long as no token of the header is a control key of the
mapping; the wildcard's key does no harm without the flag, since the wildcard is what the token
stands for then. -/
theorem resolves_declared (mapping : HeaderMapping) (sourceValue : Option String)
    (hkeys : mapping.keys ≠ [])
    (h : ∀ token ∈ sourceTokens sourceValue, token ∈ mapping.keys → token ∈ controlKeys →
      token = "*" ∧ mapping.parseHeaderKeepOnlyDeclared = false) :
    mapping.resolveHeaderOverrideValueByMapping sourceValue =
        .ok (joined (mapping.declaredTokens sourceValue)) ∧
      (mapping.parseHeaderKeepOnlyDeclared = true → ∀ token ∈ mapping.declaredTokens sourceValue,
        token ∈ mapping.parseHeaderAppendTokens ∨ ∃ key ∈ mapping.keys, key ∉ controlKeys ∧
          token ∈ parseHeaderReplacementTokens (mapping.value key)) := by
  have hall := flatMap_congr fun token htoken => replacementTokens_eq (h token htoken)
  refine ⟨?_, fun hkeep token => mem_declaredTokens hkeep⟩
  rw [resolveHeaderOverrideValueByMapping, if_neg hkeys, hall, declaredTokens]

/-- One declared token, one to append, and all others dropped. -/
def strictMapping : HeaderMapping where
  keys := ["a", "$append", "$keep_only_declared"]
  value key := if key = "a" then .text "x" else if key = "$append" then .text "y" else .bool true

theorem resolves_declared_strict :
    strictMapping.resolveHeaderOverrideValueByMapping (some "a, evil") = .ok (some "x,y") := by
  have hright :=
    (resolves_declared strictMapping (some "a, evil") (by decide) (by decide +kernel)).1
  have htokens : strictMapping.declaredTokens (some "a, evil") = ["x", "y"] := by decide +kernel
  rw [hright, htokens]
  rfl

/-- With `$keep_only_declared`, the header `*` is answered with the tokens of the wildcard. -/
theorem wildcard_requested :
    let mapping : HeaderMapping :=
      ⟨["*", "$keep_only_declared"], fun key => if key = "*" then .text "w" else .bool true⟩
    mapping.parseHeaderKeepOnlyDeclared = true ∧
      mapping.resolveHeaderOverrideValueByMapping (some "*") = .ok (some "w") ∧
      mapping.declaredTokens (some "*") = [] := by
  refine ⟨by decide +kernel, by rfl, by decide +kernel⟩

end HeaderMapping
