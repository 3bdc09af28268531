/-!
# Text/Terminal — what of a text is left when nothing in it may act on a terminal

A terminal shows most characters and acts on some: on control characters, and on sequences that begin
with the escape character.  `Terminal.inert` drops what would be acted on and keeps what would be shown,
together with tabs and line breaks.

A sequence ends by rules of its own kind, or is cancelled.  A tab or line break *interrupts* an escape or
control sequence: from there on text is shown, until the next control character takes the sequence up
again.  A character beyond ASCII in that text ends the sequence for good.
-/

namespace ImageDimensions.Terminal

/-- The sequence that has begun. -/
inductive Sequence where
  /-- None has. -/
  | none
  /-- An escape sequence, so far the escape character only. -/
  | escape
  /-- An escape sequence of several characters. -/
  | escapeIntermediate
  /-- A control sequence. -/
  | control
  /-- A command to the operating system, which a bell ends. -/
  | command
  /-- The opening of a device control string. -/
  | device
  /-- The opening of a device control string, with parameters. -/
  | deviceParameters
  /-- The opening of a device control string, with intermediate characters. -/
  | deviceIntermediate
  /-- A string, which a terminator ends. -/
  | string
deriving DecidableEq, Repr

/-- What is known before a character is read. -/
structure State where
  sequence : Sequence
  /-- Whether the character may be text: no sequence has begun, or it is interrupted. -/
  showing : Bool
deriving DecidableEq, Repr

/-- The state outside of any sequence. -/
def State.ground : State := ⟨.none, true⟩

/-- Whether a character only moves the place at which the next one is shown. -/
def isLayout (c : Char) : Bool := c = '\t' ∨ c = '\n' ∨ c = '\x0c' ∨ c = '\r'

/-- Whether a character is shown by itself. -/
def isVisible (c : Char) : Bool := ' ' ≤ c ∧ c ≠ '\x7f'

/-- Whether the number of a character lies in a range. -/
def within (low high : Nat) (c : Char) : Bool := low ≤ c.toNat ∧ c.toNat ≤ high

/-- Whether a string ends with a character.  The terminator is a byte, and one inside the encoding of a
character counts as well. -/
def terminates (c : Char) : Bool := 0x9C ∈ String.utf8EncodeChar c

/-- Whether tabs and line breaks interrupt a sequence. -/
def Sequence.isInterruptible : Sequence → Bool
  | .none | .escape | .escapeIntermediate | .control => true
  | _ => false

/-- Whether a character is kept. -/
def State.keeps (s : State) (c : Char) : Bool :=
  (s.sequence.isInterruptible && isLayout c) || (s.showing && isVisible c)

/-- What the character after the escape character begins. -/
def afterEscape (c : Char) : Sequence :=
  if c = '[' then .control
  else if c = ']' then .command
  else if c = 'P' then .device
  else if c = 'X' ∨ c = '^' ∨ c = '_' then .string
  else if within 0x20 0x2F c then .escapeIntermediate
  else if within 0x30 0x7E c then .none
  else .escape

/-- What a sequence becomes by a character of its own. -/
def Sequence.next : Sequence → Char → Sequence
  | .none, _ => .none
  | .escape, c => afterEscape c
  | .escapeIntermediate, c => if within 0x30 0x7E c then .none else .escapeIntermediate
  | .control, c => if within 0x40 0x7E c then .none else .control
  | .command, c => if c = '\x07' then .none else .command
  | .device, c =>
    if within 0x20 0x2F c then .deviceIntermediate
    else if within 0x30 0x3F c then .deviceParameters
    else if within 0x40 0x7E c then .string
    else .device
  | .deviceParameters, c =>
    if within 0x20 0x2F c then .deviceIntermediate
    else if within 0x3C 0x7E c then .string
    else .deviceParameters
  | .deviceIntermediate, c => if within 0x30 0x7E c then .string else .deviceIntermediate
  | .string, c => if terminates c then .none else .string

/-- What is known after a character has been read.  The escape character begins a sequence anew, and
either of two control characters cancels the one that has begun. -/
def State.next (s : State) (c : Char) : State :=
  if c = '\x1b' then ⟨.escape, false⟩
  else if c = '\x18' ∨ c = '\x1a' then .ground
  else if s.keeps c then ⟨if c.toNat < 0x80 then s.sequence else .none, true⟩
  else ⟨s.sequence.next c, s.sequence.next c = .none⟩

/-- The characters that are kept of a text read from a state on. -/
def keptFrom : State → List Char → List Char
  | _, [] => []
  | s, c :: cs => if s.keeps c then c :: keptFrom (s.next c) cs else keptFrom (s.next c) cs

/-- The text without what acts on a terminal. -/
def inert (s : String) : String := String.ofList (keptFrom .ground s.toList)

theorem keeps_ground_of_isVisible {c : Char} (h : isVisible c) : State.ground.keeps c := by
  simp [State.keeps, State.ground, h]

theorem next_ground_of_isVisible {c : Char} (h : isVisible c) : State.ground.next c = .ground := by
  have hne : ∀ d, isVisible d = false → c ≠ d := fun d hd he => by simp [he ▸ h] at hd
  have hcancel : ¬ (c = '\x18' ∨ c = '\x1a') :=
    not_or.2 ⟨hne _ (by decide), hne _ (by decide)⟩
  rw [State.next, if_neg (hne _ (by decide)), if_neg hcancel, if_pos (keeps_ground_of_isVisible h)]
  simp [State.ground]

/-- A text without control characters is kept as it is. -/
theorem keptFrom_ground_of_forall : ∀ {cs : List Char}, (∀ c ∈ cs, isVisible c) →
    keptFrom .ground cs = cs
  | [], _ => rfl
  | c :: cs, h => by
    obtain ⟨hc, hcs⟩ := List.forall_mem_cons.1 h
    rw [keptFrom, if_pos (keeps_ground_of_isVisible hc), next_ground_of_isVisible hc,
      keptFrom_ground_of_forall hcs]

/-- A change of colour is dropped, also when a line break interrupts it. -/
example : keptFrom .ground ['\x1b', '[', '3', '\n', 'a', '\x07', '1', 'm', 'b'] = ['\n', 'a', 'b'] := by
  decide

end ImageDimensions.Terminal
