import Mathlib.Tactic

/-!
# What a terminal reads

A terminal takes a stream of bytes apart into characters, controls, and sequences: the escape
character, a bracket, parameters, and a final byte that says what to do. Only the controls of seven
bits are known here.

`Reads bytes tokens` says that bytes are whole tokens. Such texts can be put one behind the other,
so what a program writes is read piece by piece.
-/

namespace TerminalStream

def escape : UInt8 := 0x1b
def bracket : UInt8 := 0x5b

/-- What the terminal acts on. -/
inductive Token
  | character (c : UInt8)
  | control (c : UInt8)
  | sequence (parameters : List UInt8) (final : UInt8)
  deriving DecidableEq, Repr

/-- Where the terminal is in its stream. -/
inductive State
  | ground
  | escaped
  | sequence (parameters : List UInt8)
  deriving DecidableEq, Repr

/-- A control character. -/
def isControl (c : UInt8) : Bool := c < 0x20 || c = 0x7f

/-- The byte that ends a sequence. -/
def isFinal (c : UInt8) : Bool := 0x40 ≤ c && c ≤ 0x7e

/-- The terminal takes a byte. -/
def next : State → UInt8 → State × List Token
  | .ground, c =>
    if c = escape then (.escaped, [])
    else if isControl c then (.ground, [.control c])
    else (.ground, [.character c])
  | .escaped, c => if c = bracket then (.sequence [], []) else (.ground, [.control c])
  | .sequence parameters, c =>
    if isFinal c then (.ground, [.sequence parameters c]) else (.sequence (parameters ++ [c]), [])

/-- The tokens of a stream, and where the terminal is behind it. -/
def scan (s : State) : List UInt8 → List Token × State
  | [] => ([], s)
  | c :: rest => ((next s c).2 ++ (scan (next s c).1 rest).1, (scan (next s c).1 rest).2)

theorem scan_append (s : State) (front rest : List UInt8) :
    scan s (front ++ rest) =
      ((scan s front).1 ++ (scan (scan s front).2 rest).1, (scan (scan s front).2 rest).2) := by
  induction front generalizing s with
  | nil => rfl
  | cons c front ih =>
    rw [List.cons_append, scan, ih, scan]
    simp only [List.append_assoc]

/-- The bytes are these tokens, and nothing is left open. -/
def Reads (bytes : List UInt8) (tokens : List Token) : Prop :=
  scan .ground bytes = (tokens, .ground)

namespace Reads

theorem nil : Reads [] [] := rfl

/-- Texts one behind the other. -/
theorem append {front rest : List UInt8} {tokens more : List Token} (h : Reads front tokens)
    (h' : Reads rest more) : Reads (front ++ rest) (tokens ++ more) := by
  unfold Reads at h h' ⊢
  rw [scan_append, h, h']

theorem singleton {c : UInt8} {tokens : List Token} (h : next .ground c = (.ground, tokens)) :
    Reads [c] tokens := by
  unfold Reads scan
  rw [h]
  simp [scan]

theorem control {c : UInt8} (hcontrol : isControl c = true) (hc : c ≠ escape) :
    Reads [c] [.control c] :=
  singleton (by simp [next, hc, hcontrol])

/-- A text without controls is its characters. -/
theorem text {bytes : List UInt8} (h : ∀ c ∈ bytes, isControl c = false) :
    Reads bytes (bytes.map .character) := by
  induction bytes with
  | nil => rfl
  | cons c bytes ih =>
    obtain ⟨hc, hbytes⟩ := List.forall_mem_cons.1 h
    have hescape : c ≠ escape := by
      rintro rfl
      cases hc
    have hfirst : Reads [c] [.character c] := singleton (by simp [next, hescape, hc])
    exact hfirst.append (ih hbytes)

theorem scan_parameters {parameters : List UInt8} (h : ∀ c ∈ parameters, isFinal c = false)
    (front : List UInt8) :
    scan (.sequence front) parameters = ([], .sequence (front ++ parameters)) := by
  induction parameters generalizing front with
  | nil =>
    rw [List.append_nil]
    rfl
  | cons c parameters ih =>
    obtain ⟨hc, hparameters⟩ := List.forall_mem_cons.1 h
    have hnext : next (.sequence front) c = (.sequence (front ++ [c]), []) := by simp [next, hc]
    rw [scan, hnext, ih hparameters, List.append_assoc]
    rfl

/-- A sequence. -/
theorem sequence {parameters : List UInt8} {final : UInt8}
    (h : ∀ c ∈ parameters, isFinal c = false) (hfinal : isFinal final = true) :
    Reads (escape :: bracket :: parameters ++ [final]) [.sequence parameters final] := by
  have hopen : scan .ground [escape, bracket] = ([], .sequence []) := rfl
  have hclose : scan (.sequence parameters) [final] = ([.sequence parameters final], .ground) := by
    simp [scan, next, hfinal]
  unfold Reads
  show scan .ground ([escape, bracket] ++ parameters ++ [final]) = _
  have hmiddle : scan (.sequence []) parameters = ([], .sequence parameters) := scan_parameters h []
  rw [scan_append, scan_append, hopen]
  dsimp only
  rw [hmiddle]
  dsimp only
  rw [hclose]
  rfl

end Reads

/-! ## What is seen -/

/-- Not a sequence. -/
def Token.isVisible : Token → Bool
  | .sequence _ _ => false
  | _ => true

/-- The tokens apart from the sequences. -/
def visible (tokens : List Token) : List Token := tokens.filter Token.isVisible

theorem visible_append (tokens more : List Token) :
    visible (tokens ++ more) = visible tokens ++ visible more := List.filter_append ..

@[simp] theorem visible_sequence (parameters : List UInt8) (final : UInt8) :
    visible [.sequence parameters final] = [] := rfl

@[simp] theorem visible_control (c : UInt8) : visible [.control c] = [.control c] := rfl

@[simp] theorem visible_text (text : List UInt8) :
    visible (text.map Token.character) = text.map Token.character := by
  unfold visible
  rw [List.filter_eq_self]
  intro token htoken
  obtain ⟨c, -, rfl⟩ := List.mem_map.1 htoken
  rfl

end TerminalStream
