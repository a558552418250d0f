import SipDemo.SipParser

/-!
# SipDemo.SipParser.Params

Parameters of header values.

`headerParam` looks at every `;` of a value: what stands behind one, up to the
next, is a parameter to it (`headerParam_eq_lookup`).  In a name-addr value,
`display <uri>;name=value`, that is right for the parameters proper and wrong
for a `;` inside the quoted display name or the URI, which is met first
(`NameAddr.headerParam_text_iff`).
-/

namespace SipDemo

/-! ## the pieces of a value -/

/-- A parameter as it stands: the name, and the value behind a `=`. -/
def splitParam (piece : Str) : Str × Option Str :=
  (piece.takeWhile fun c => c ≠ ch '=',
    ((piece.dropWhile fun c => c ≠ ch '=').tail?))

/-- What stands behind each `;` of a text. -/
def pieces : Str → List (Str × Option Str)
  | [] => []
  | c :: rest =>
      if c = ch ';' then splitParam (rest.takeWhile fun c => c ≠ ch ';') :: pieces rest
      else pieces rest

/-- The value of the first parameter of a name, up to case and white space; it
is empty for a parameter without one. -/
def lookupParam (params : List (Str × Option Str)) (name : Str) : Option Str :=
  (params.find? fun p => iequals (trim p.1) name).map fun p => trim (p.2.getD [])

theorem takeWhile_paramDelim (rest : Str) :
    (rest.takeWhile fun c => !paramDelim c) =
      (splitParam (rest.takeWhile fun c => c ≠ ch ';')).1 := by
  rw [splitParam, List.takeWhile_takeWhile]
  congr 1
  funext c
  simp [paramDelim, Bool.and_comm]

theorem paramValue_eq (rest : Str) :
    paramValue rest = trim ((splitParam (rest.takeWhile fun c => c ≠ ch ';')).2.getD []) := by
  induction rest with
  | nil => rfl
  | cons c rest ih =>
      by_cases heq : c = ch '='
      · have hsemi : c ≠ ch ';' := by
          rw [heq]
          decide
        simp [paramValue, splitParam, paramDelim, heq, show ch '=' ≠ ch ';' by decide]
      · by_cases hsemi : c = ch ';'
        · rw [List.takeWhile_cons_of_neg (by simp [hsemi])]
          simp [paramValue, paramDelim, hsemi, splitParam]
          rfl
        · have hskip : paramValue (c :: rest) = paramValue rest := by
            simp [paramValue, paramDelim, heq, hsemi]
          rw [hskip, ih, List.takeWhile_cons_of_pos (by simp [hsemi]), splitParam, splitParam,
            List.dropWhile_cons_of_pos (by simp [heq])]

/-- **What `headerParam` does**: it looks the name up in all the pieces. -/
theorem headerParam_eq_lookup (s name : Str) :
    headerParam s name = lookupParam (pieces s) name := by
  induction s with
  | nil => rfl
  | cons c rest ih =>
      rw [headerParam, pieces]
      by_cases hsemi : c = ch ';'
      · rw [if_pos hsemi, lookupParam, List.find?_cons, takeWhile_paramDelim]
        cases hname : iequals (trim (splitParam (rest.takeWhile fun c => c ≠ ch ';')).1) name with
        | true => simp [hsemi, paramValue_eq]
        | false => simpa [hsemi, lookupParam] using ih
      · rw [if_neg hsemi]
        simpa [hsemi] using ih

/-! ## lookups in parts -/

theorem lookupParam_append (xs ys : List (Str × Option Str)) (name : Str) :
    lookupParam (xs ++ ys) name = (lookupParam xs name).or (lookupParam ys name) := by
  rw [lookupParam, List.find?_append, Option.map_or]
  rfl

theorem pieces_of_not_mem {s : Str} (h : ch ';' ∉ s) : pieces s = [] := by
  induction s with
  | nil => rfl
  | cons c s ih =>
      rw [List.mem_cons, not_or] at h
      rw [pieces, if_neg (Ne.symm h.1), ih h.2]

/-- One `;` in front makes one piece. -/
theorem pieces_semicolon {s : Str} (h : ch ';' ∉ s) : pieces (ch ';' :: s) = [splitParam s] := by
  rw [pieces, if_pos rfl, pieces_of_not_mem h, (span_of_not_mem h).1]

/-- A text that goes on with `;`, or not at all, keeps its pieces. -/
theorem pieces_append {rest : Str} (hrest : ∀ c ∈ rest.head?, c = ch ';') (s : Str) :
    pieces (s ++ rest) = pieces s ++ pieces rest := by
  have hstop : rest.takeWhile (fun c => c ≠ ch ';') = [] := by
    cases rest with
    | nil => rfl
    | cons c rest => simp [hrest c rfl]
  induction s with
  | nil => rfl
  | cons c s ih =>
      rw [List.cons_append, pieces, pieces, ih]
      by_cases hsemi : c = ch ';'
      · rw [if_pos hsemi, if_pos hsemi, List.cons_append]
        congr 2
        rw [List.takeWhile_append]
        split
        · next hall =>
            rw [hstop, List.append_nil]
            exact ((List.takeWhile_prefix _).eq_of_length hall).symm
        · rfl
      · rw [if_neg hsemi, if_neg hsemi]

/-! ## name-addr values -/

/-- The bytes that a parameter does not contain. -/
def separator (c : UInt8) : Bool :=
  c = ch ';' || c = ch '=' || c = ch '<' || c = ch '>' || c = ch '"'

/-- `;name` or `;name=value`. -/
structure Param where
  name : Str
  value : Option Str
  name_plain : ∀ c ∈ name, separator c = false
  value_plain : ∀ v ∈ value, ∀ c ∈ v, separator c = false

/-- `display <uri>` with parameters behind it. -/
structure NameAddr where
  display : Str
  uri : Str
  params : List Param

namespace Param

def text (p : Param) : Str := ch ';' :: (p.name ++ p.value.elim [] (ch '=' :: ·))

theorem pieces_text (p : Param) : pieces p.text = [(p.name, p.value)] := by
  obtain ⟨name, value, hname, hvalue⟩ := p
  have hsemi : ch ';' ∉ name := fun h => absurd (hname _ h) (by decide)
  have heq : ch '=' ∉ name := fun h => absurd (hname _ h) (by decide)
  cases value with
  | none =>
      have hsplit : splitParam name = (name, none) := by
        rw [splitParam, (span_of_not_mem heq).1, (span_of_not_mem heq).2]
        rfl
      simpa [text, hsplit] using pieces_semicolon hsemi
  | some v =>
      have hv : ch ';' ∉ v := fun h => absurd (hvalue v rfl _ h) (by decide)
      have hall : ch ';' ∉ name ++ ch '=' :: v := by
        rw [List.mem_append, List.mem_cons, not_or, not_or]
        exact ⟨hsemi, by decide, hv⟩
      obtain ⟨htake, hdrop⟩ := span_separator heq v
      have hsplit : splitParam (name ++ ch '=' :: v) = (name, some v) := by
        rw [splitParam, htake, hdrop]
        rfl
      simpa [text, hsplit] using pieces_semicolon hall

end Param

namespace NameAddr

/-- The part in front of the parameters. -/
def front (a : NameAddr) : Str := a.display ++ str "<" ++ a.uri ++ str ">"

def text (a : NameAddr) : Str := a.front ++ a.params.flatMap Param.text

/-- The value of the first parameter of a name. -/
def param (a : NameAddr) (name : Str) : Option Str :=
  lookupParam (a.params.map fun p => (p.name, p.value)) name

/-- What stands behind a `;` of the display name or the URI under that name. -/
def stray (a : NameAddr) (name : Str) : Option Str := lookupParam (pieces a.front) name

/-- Parameters start with a `;`. -/
theorem head?_params (params : List Param) :
    ∀ c ∈ (params.flatMap Param.text).head?, c = ch ';' := by
  cases params with
  | nil => simp
  | cons p params => simp [Param.text]

theorem pieces_params (params : List Param) :
    pieces (params.flatMap Param.text) = params.map fun p => (p.name, p.value) := by
  induction params with
  | nil => rfl
  | cons p params ih =>
      rw [List.flatMap_cons, pieces_append (head?_params params), p.pieces_text, ih]
      rfl

/-- What is found in front of the parameters comes before them. -/
theorem headerParam_text (a : NameAddr) (name : Str) :
    headerParam a.text name = (a.stray name).or (a.param name) := by
  rw [headerParam_eq_lookup, text, pieces_append (head?_params a.params), pieces_params,
    lookupParam_append]
  rfl

/-- `headerParam` gives the parameter if and only if nothing of that name
stands behind a `;` of the display name or the URI, or the same value does. -/
theorem headerParam_text_iff (a : NameAddr) (name : Str) :
    headerParam a.text name = a.param name ↔ ∀ v ∈ a.stray name, a.param name = some v := by
  rw [headerParam_text]
  cases a.stray name with
  | none => simp
  | some v => simp [eq_comm]

end NameAddr

end SipDemo
