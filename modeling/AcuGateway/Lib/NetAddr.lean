/-
Network addresses, and the hosts of URLs, as texts.

An address has 128 bits; the addresses of version 4 are those that begin with 80 zeros and 16 ones.
`parseAddr` reads the textual forms with a zone behind a percent sign, `parseIP` those without a
zone. `splitHostPort` takes an address with a port apart, `URL.hostname` and `URL.port` the host of
a URL.

* `cutFirst_eq_some`, `cutLast_eq_some` — a text cut at the first or last of a character;
* `URL.hostname_of_splitHostPort` — both ways to take the host of a URL apart agree.
-/
import AcuGateway.Lib.Text

open List

variable (s : String)

/-- The integer that a decimal text stands for, in 64 bits, or what is wrong with it. -/
def Text.atoi : Except String Int :=
  let (negative, digits) := match s.toList with
    | '-' :: digits => (true, digits)
    | '+' :: digits => (false, digits)
    | digits => (false, digits)
  if digits = [] ∨ ¬ digits.all Char.isDigit then .error "invalid syntax"
  else
    let magnitude : Int := digits.foldl (fun n c => 10 * n + (c.toNat - '0'.toNat : Nat)) 0
    let value := if negative then - magnitude else magnitude
    if -9223372036854775808 ≤ value ∧ value ≤ 9223372036854775807 then .ok value
    else .error "value out of range"

namespace NetAddr

/-! ### Cuts -/

/-- What stands before and after the first `c`. -/
def cutFirst (c : Char) : List Char → Option (List Char × List Char)
  | [] => none
  | d :: l => if d = c then some ([], l) else (cutFirst c l).map fun cut => (d :: cut.1, cut.2)

/-- What stands before and after the last `c`. -/
def cutLast (c : Char) : List Char → Option (List Char × List Char)
  | [] => none
  | d :: l =>
    match cutLast c l with
    | some cut => some (d :: cut.1, cut.2)
    | none => if d = c then some ([], l) else none

section Cut

variable {c : Char} {l before after : List Char}

theorem cutFirst_eq_some (h : cutFirst c l = some (before, after)) :
    l = before ++ c :: after ∧ c ∉ before := by
  induction l generalizing before with
  | nil => cases h
  | cons d l ih =>
    rw [cutFirst] at h
    by_cases hd : d = c
    · rw [if_pos hd] at h
      cases h
      exact ⟨by rw [hd]; rfl, not_mem_nil⟩
    · rw [if_neg hd] at h
      obtain ⟨cut, hcut, heq⟩ := Option.map_eq_some_iff.mp h
      cases heq
      obtain ⟨hl, hnot⟩ := ih hcut
      refine ⟨by rw [hl]; rfl, fun hmem => ?_⟩
      rcases mem_cons.mp hmem with heq | hmem
      · exact hd heq.symm
      · exact hnot hmem

theorem cutLast_eq_none (h : cutLast c l = none) : c ∉ l := by
  induction l with
  | nil => exact not_mem_nil
  | cons d l ih =>
    rw [cutLast] at h
    cases hcut : cutLast c l with
    | some cut =>
      rw [hcut] at h
      cases h
    | none =>
      rw [hcut] at h
      intro hmem
      rcases mem_cons.mp hmem with rfl | hmem
      · rw [if_pos rfl] at h
        cases h
      · exact ih hcut hmem

theorem cutLast_eq_some (h : cutLast c l = some (before, after)) :
    l = before ++ c :: after ∧ c ∉ after := by
  induction l generalizing before with
  | nil => cases h
  | cons d l ih =>
    rw [cutLast] at h
    cases hcut : cutLast c l with
    | some cut =>
      rw [hcut] at h
      cases h
      obtain ⟨hl, hnot⟩ := ih hcut
      exact ⟨by rw [hl]; rfl, hnot⟩
    | none =>
      rw [hcut] at h
      by_cases hd : d = c
      · rw [if_pos hd] at h
        cases h
        exact ⟨by rw [hd]; rfl, cutLast_eq_none hcut⟩
      · rw [if_neg hd] at h
        cases h

/-- A text is cut at the last `c` if there is none behind it. -/
theorem cutLast_append (hafter : c ∉ after) :
    cutLast c (before ++ c :: after) = some (before, after) := by
  -- the last occurrence is the one after which there is none
  have hnone : ∀ l : List Char, c ∉ l → cutLast c l = none := by
    intro l hl
    induction l with
    | nil => rfl
    | cons d l ih =>
      rw [cutLast, ih fun h => hl (mem_cons_of_mem d h)]
      refine if_neg fun hd => hl ?_
      rw [hd]
      exact mem_cons_self
  induction before with
  | nil =>
    rw [nil_append, cutLast, hnone after hafter]
    exact if_pos rfl
  | cons d before ih =>
    rw [cons_append, cutLast, ih]

end Cut

/-! ### Addresses -/

/-- An address in its long form. -/
abbrev IP := BitVec 128

namespace IP

variable (ip : IP)

/-- An address of version 4. -/
def is4 : Bool := ip >>> 32 = 0xffff

def of4 (n : Nat) : IP := 0xffff00000000 + BitVec.ofNat 128 n

/-- The bytes of the long form. -/
def byte (i : Nat) : Nat := (ip >>> (8 * (15 - i))).toNat % 256

def hextet (i : Nat) : Nat := (ip >>> (16 * (7 - i))).toNat % 65536

/-- The first run of zeros in the long form that is as long as any, if there are two of them: its
beginning and its length. -/
def zeros : Nat × Nat :=
  let run := fun i => (((List.range 8).drop i).takeWhile fun j => ip.hextet j = 0).length
  (List.range 8).foldl (fun best i => if 2 ≤ run i ∧ best.2 < run i then (i, run i)
    else best) (0, 0)

def hextets (first last : Nat) : String :=
  ":".intercalate
    (((List.range last).drop first).map fun i => String.ofList (Nat.toDigits 16 (ip.hextet i)))

def string : String :=
  if ip.is4 then ".".intercalate ([12, 13, 14, 15].map fun i => toString (ip.byte i))
  else
    let (start, length) := ip.zeros
    if length = 0 then ip.hextets 0 8
    else ip.hextets 0 start ++ "::" ++ ip.hextets (start + length) 8

end IP

/-- An address as it was written. -/
structure Addr where
  ip : IP
  is4 : Bool
  zone : String

def octet : Option Nat :=
  match s.toList with
  | [] => none
  | first :: rest =>
    if ¬ (first :: rest).all Char.isDigit ∨ 2 < rest.length ∨ first = '0' ∧ rest ≠ [] then none
    else
      let n := (first :: rest).foldl (fun n c => 10 * n + (c.toNat - '0'.toNat)) 0
      if n ≤ 255 then some n else none

def parseIPv4 : Option Nat :=
  match Text.split s "." with
  | [a, b, c, d] => do
    let a ← octet a
    let b ← octet b
    let c ← octet c
    let d ← octet d
    some (((a * 256 + b) * 256 + c) * 256 + d)
  | _ => none

def hexDigit (c : Char) : Option Nat :=
  if c.isDigit then some (c.toNat - '0'.toNat)
  else if 'a' ≤ c ∧ c ≤ 'f' then some (c.toNat - 'a'.toNat + 10)
  else if 'A' ≤ c ∧ c ≤ 'F' then some (c.toNat - 'A'.toNat + 10)
  else none

def parseHextet : Option Nat := do
  let digits ← s.toList.mapM hexDigit
  if digits = [] ∨ 4 < digits.length then none
  else some (digits.foldl (fun n d => 16 * n + d) 0)

/-- The numbers between colons; an address of version 4 may stand for the last two. -/
def parseHextets (embedded : Bool) : List String → Option (List Nat)
  | [] => some []
  | [last] =>
    if embedded = true ∧ Text.contains last "." = true then
      (parseIPv4 last).map fun n => [n / 65536, n % 65536]
    else (parseHextet last).map fun n => [n]
  | part :: parts => do
    let n ← parseHextet part
    let rest ← parseHextets embedded parts
    some (n :: rest)

def groups (embedded : Bool) (s : String) : Option (List Nat) :=
  if s = "" then some [] else parseHextets embedded (Text.split s ":")

def ofHextets (l : List Nat) : IP := BitVec.ofNat 128 (l.foldl (fun n h => 65536 * n + h) 0)

/-- Two colons stand for at least one group of zeros. -/
def parseIPv6 : Option IP :=
  match Text.split s "::" with
  | [whole] => do
    let l ← groups true whole
    if l.length = 8 then some (ofHextets l) else none
  | [front, back] => do
    let l ← groups false front
    let r ← groups true back
    if l.length + r.length < 8 then
      some (ofHextets (l ++ List.replicate (8 - l.length - r.length) 0 ++ r)) else none
  | _ => none

def parseAddr : Option Addr :=
  match s.toList.find? fun c => c = '.' || c = ':' || c = '%' with
  | some '.' => (parseIPv4 s).map fun n => ⟨IP.of4 n, true, ""⟩
  | some ':' =>
    match cutFirst '%' s.toList with
    | none => (parseIPv6 s).map fun ip => ⟨ip, false, ""⟩
    | some (text, zone) =>
      if zone = [] then none else (parseIPv6 (String.ofList text)).map fun ip =>
        ⟨ip, false, String.ofList zone⟩
  | _ => none

/-- The address of a text without a zone. -/
def parseIP : Option IP :=
  match parseAddr s with
  | some addr => if addr.zone = "" then some addr.ip else none
  | none => none

theorem parseAddr_of_parseIP {s : String} {ip : IP} (h : parseIP s = some ip) :
    (parseAddr s).map Addr.ip = some ip := by
  unfold parseIP at h
  cases hs : parseAddr s with
  | none =>
    rw [hs] at h
    cases h
  | some addr =>
    rw [hs] at h
    dsimp only at h
    split_ifs at h
    exact h

/-! ### Networks -/

/-- An address and how many bits of it count. -/
structure IPNet where
  address : IP
  bits : Nat

namespace IPNet

def of4 (a b c d bits : Nat) : IPNet := ⟨IP.of4 (((a * 256 + b) * 256 + c) * 256 + d), 96 + bits⟩

/-- A network has addresses of one version only. -/
def contains (network : IPNet) (ip : IP) : Bool :=
  let rest := 128 - network.bits
  ip.is4 = IP.is4 ((network.address >>> rest) <<< rest) ∧ ip >>> rest = network.address >>> rest

end IPNet

def parseCIDR : Option IPNet :=
  match cutFirst '/' s.toList with
  | none => none
  | some (text, mask) =>
    match parseAddr (String.ofList text) with
    | none => none
    | some addr =>
      let bits := mask.foldl (fun n c => 10 * n + (c.toNat - '0'.toNat)) 0
      if addr.zone ≠ "" ∨ mask = [] ∨ ¬ mask.all Char.isDigit ∨
        (if addr.is4 then 32 else 128) < bits then none
      else some ⟨addr.ip, if addr.is4 then 96 + bits else bits⟩

/-! ### Hosts and ports -/

/-- The parts of `host:port`, `[host]:port`, or what is wrong with the text. -/
def splitChars (l : List Char) : Except String (List Char × List Char) :=
  match cutLast ':' l with
  | none => .error "missing port in address"
  | some (front, port) =>
    if l.head? = some '[' then
      match cutFirst ']' l with
      | none => .error "missing ']' in address"
      | some (inside, rest) =>
        if rest = ':' :: port then
          if '[' ∈ inside.tail ∨ '[' ∈ rest then .error "unexpected '[' in address"
          else if ']' ∈ rest then .error "unexpected ']' in address"
          else .ok (inside.tail, port)
        else if rest.head? = some ':' then .error "too many colons in address"
        else .error "missing port in address"
    else if ':' ∈ front then .error "too many colons in address"
    else if '[' ∈ l then .error "unexpected '[' in address"
    else if ']' ∈ l then .error "unexpected ']' in address"
    else .ok (front, port)

def splitHostPort : Except String (String × String) :=
  match splitChars s.toList with
  | .ok parts => .ok (String.ofList parts.1, String.ofList parts.2)
  | .error why => .error s!"address {s}: {why}"

def joinHostPort (host port : String) : String :=
  if ':' ∈ host.toList then "[" ++ host ++ "]:" ++ port else host ++ ":" ++ port

/-- A colon and digits, or nothing. -/
def validOptionalPort : List Char → Bool
  | [] => true
  | c :: port => c = ':' && port.all Char.isDigit

/-- What the parser of URLs demands of a host: a port behind it is a number. -/
def validHost (l : List Char) : Bool :=
  if l.head? = some '[' then
    match cutLast ']' l with
    | none => false
    | some (_, rest) => validOptionalPort rest
  else
    match cutLast ':' l with
    | none => true
    | some (_, port) => port.all Char.isDigit

/-- A URL that was parsed, with the text that it is printed as. -/
structure URL where
  text : String
  scheme : String
  host : String
  valid : validHost host.toList = true

namespace URL

/-- The host without a port, and the port. -/
def parts (l : List Char) : List Char × List Char :=
  match cutLast ':' l with
  | some (front, port) => if port.all Char.isDigit then (front, port) else (l, [])
  | none => (l, [])

/-- Brackets around a host are no part of its name. -/
def unbracket (l : List Char) : List Char :=
  if l.head? = some '[' ∧ l.getLast? = some ']' then l.tail.dropLast else l

def hostname (url : URL) : String := String.ofList (unbracket (parts url.host.toList).1)

def port (url : URL) : String := String.ofList (parts url.host.toList).2

theorem unbracket_of_splitChars {l host port : List Char} (hvalid : validHost l = true)
    (h : splitChars l = .ok (host, port)) :
    unbracket (parts l).1 = host := by
  unfold splitChars at h
  cases hcut : cutLast ':' l with
  | none =>
    rw [hcut] at h
    cases h
  | some cut =>
    obtain ⟨front, last⟩ := cut
    rw [hcut] at h
    dsimp only at h
    unfold validHost at hvalid
    have hparts : last.all Char.isDigit = true → (parts l).1 = front := by
      intro hdigits
      unfold parts
      rw [hcut]
      dsimp only
      rw [if_pos hdigits]
    by_cases hbracket : l.head? = some '['
    -- a host in brackets: the first closing one is the last one too, and a colon follows
    · rw [if_pos hbracket] at h hvalid
      cases hclose : cutFirst ']' l with
      | none =>
        rw [hclose] at h
        cases h
      | some cut =>
        obtain ⟨inside, rest⟩ := cut
        rw [hclose] at h
        dsimp only at h
        split_ifs at h with hrest hopen hshut
        cases h
        obtain ⟨hl, hinside⟩ := cutFirst_eq_some hclose
        have hlast : cutLast ']' l = some (inside, rest) := by
          rw [hl]
          exact cutLast_append hshut
        rw [hlast] at hvalid
        dsimp only at hvalid
        rw [hrest] at hvalid hl
        have hfront : front = inside ++ [']'] := by
          have hsame : l = (inside ++ [']']) ++ ':' :: port := by rw [hl, append_assoc]; rfl
          have hcolon : ':' ∉ port := (cutLast_eq_some hcut).2
          have hagain : cutLast ':' l = some (inside ++ [']'], port) := by
            rw [hsame]
            exact cutLast_append hcolon
          rw [hcut] at hagain
          cases hagain
          rfl
        rw [hparts (by simpa [validOptionalPort] using hvalid), hfront]
        cases inside with
        | nil =>
          rw [hl] at hbracket
          cases hbracket
        | cons c inside =>
          rw [hl] at hbracket
          cases hbracket
          unfold unbracket
          rw [if_pos ⟨rfl, getLast?_concat ..⟩]
          exact dropLast_concat
    · rw [if_neg hbracket] at h hvalid
      rw [hcut] at hvalid
      split_ifs at h
      cases h
      rw [hparts hvalid]
      unfold unbracket
      refine if_neg fun hboth => hbracket ?_
      rw [(cutLast_eq_some hcut).1, head?_append_of_ne_nil]
      · exact hboth.1
      · intro hnil
        rw [hnil] at hboth
        cases hboth.1

theorem hostname_of_splitHostPort {url : URL} {host port : String}
    (h : splitHostPort url.host = .ok (host, port)) :
    url.hostname = host := by
  unfold splitHostPort at h
  cases hsplit : splitChars url.host.toList with
  | error why =>
    rw [hsplit] at h
    cases h
  | ok cut =>
    rw [hsplit] at h
    cases h
    unfold hostname
    rw [unbracket_of_splitChars url.valid hsplit]

end URL

end NetAddr
