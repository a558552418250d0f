import SipDemo.Bytes

/-!
# SipDemo.SipMessage

A SIP message, its header accessors and its wire format (`SipMessage.h` and
the methods in `SipParser.cpp`).  Headers are an ordered list of (name, value) pairs, and
every lookup compares names up to ASCII case.

The accessor laws below say what a lookup sees after a header was added,
replaced or removed; response building is analysed with them alone.
-/

namespace SipDemo

/-- A SIP message: one record for requests and responses, with `isRequest`
telling which start line is valid. -/
structure SipMessage where
  isRequest : Bool := true
  method : Str := []
  requestUri : Str := []
  statusCode : Int := 0
  reasonPhrase : Str := []
  version : Str := str "SIP/2.0"
  headers : List (Str × Str) := []
  body : Str := []
  deriving DecidableEq, Repr

namespace SipMessage

variable (m : SipMessage) (name value : Str)

/-- `get`: the value of the first header of that name. -/
def get : Option Str := (m.headers.find? fun h => iequals h.1 name).map Prod.snd

/-- `getAll`: the values of all headers of that name, in order. -/
def getAll : List Str := (m.headers.filter fun h => iequals h.1 name).map Prod.snd

/-- `remove`: erase every header of that name. -/
def remove : SipMessage := { m with headers := m.headers.filter fun h => !iequals h.1 name }

/-- `add`: append a header, keeping any of the same name. -/
def add : SipMessage := { m with headers := m.headers ++ [(name, value)] }

/-- `set`: replace all headers of that name by a single one, at the end. -/
def set : SipMessage := (m.remove name).add name value

/-- `serialize`: Content-Length is always the last header, and the size of the
body whatever the message says. -/
def serialize : Str :=
  (if m.isRequest then m.method ++ str " " ++ m.requestUri ++ str " " ++ m.version ++ crlf
    else m.version ++ str " " ++ intStr m.statusCode ++ str " " ++ m.reasonPhrase ++ crlf) ++
  (m.headers.filter fun h => !iequals h.1 (str "Content-Length")).flatMap
    (fun h => h.1 ++ str ": " ++ h.2 ++ crlf) ++
  str "Content-Length: " ++ natStr m.body.length ++ crlf ++
  crlf ++
  m.body

/-! ## the other fields are untouched -/

@[simp] theorem set_statusCode : (m.set name value).statusCode = m.statusCode := rfl

@[simp] theorem set_isRequest : (m.set name value).isRequest = m.isRequest := rfl

@[simp] theorem set_body : (m.set name value).body = m.body := rfl

/-! ## lookups after an update -/

theorem getAll_add (n : Str) :
    (m.add name value).getAll n = m.getAll n ++ if iequals name n then [value] else [] := by
  cases h : iequals name n <;> simp [getAll, add, h]

theorem get_eq_head?_getAll (n : Str) : m.get n = (m.getAll n).head? := by
  simp [get, getAll, List.head?_filter]

theorem getAll_remove (n : Str) :
    (m.remove name).getAll n = if iequals name n then [] else m.getAll n := by
  cases h : iequals name n with
  | true =>
      have hsame : ∀ x : Str × Str, iequals x.1 name = iequals x.1 n := by
        intro x
        rw [iequals_comm x.1, iequals_congr h, iequals_comm n]
      simp [getAll, remove, List.filter_filter, hsame]
  | false =>
      have hkeep : ∀ x ∈ m.headers, (iequals x.1 n && !iequals x.1 name) = iequals x.1 n := by
        intro x _
        cases hx : iequals x.1 n with
        | false => rfl
        | true => rw [iequals_congr hx, iequals_comm, h]; rfl
      simp only [getAll, remove, List.filter_filter, Bool.false_eq_true, ↓reduceIte]
      rw [List.filter_congr hkeep]

/-- After `set`, the name reads back the one value and other names are
unchanged. -/
theorem getAll_set (n : Str) :
    (m.set name value).getAll n = if iequals name n then [value] else m.getAll n := by
  rw [set, getAll_add, getAll_remove]
  cases iequals name n <;> simp

theorem get_set (n : Str) :
    (m.set name value).get n = if iequals name n then some value else m.get n := by
  rw [get_eq_head?_getAll, getAll_set, get_eq_head?_getAll]
  cases iequals name n <;> simp

/-- Stacking headers of one name appends them in order. -/
theorem getAll_foldl_add (vs : List Str) (n : Str) :
    (vs.foldl (fun r v => r.add name v) m).getAll n =
      m.getAll n ++ if iequals name n then vs else [] := by
  induction vs generalizing m with
  | nil => simp
  | cons v vs ih =>
      rw [List.foldl_cons, ih, getAll_add, List.append_assoc]
      cases iequals name n <;> simp

theorem foldl_add_statusCode (vs : List Str) :
    (vs.foldl (fun r v => r.add name v) m).statusCode = m.statusCode := by
  induction vs generalizing m with
  | nil => rfl
  | cons v vs ih => exact ih (m.add name v)

theorem foldl_add_isRequest (vs : List Str) :
    (vs.foldl (fun r v => r.add name v) m).isRequest = m.isRequest := by
  induction vs generalizing m with
  | nil => rfl
  | cons v vs ih => exact ih (m.add name v)

theorem foldl_add_body (vs : List Str) :
    (vs.foldl (fun r v => r.add name v) m).body = m.body := by
  induction vs generalizing m with
  | nil => rfl
  | cons v vs ih => exact ih (m.add name v)

theorem foldl_set_statusCode (hs : List (Str × Str)) :
    (hs.foldl (fun r h => r.set h.1 h.2) m).statusCode = m.statusCode := by
  induction hs generalizing m with
  | nil => rfl
  | cons h hs ih => exact ih (m.set h.1 h.2)

end SipMessage

end SipDemo
