import EditorScaffold.Text.Basic

/-! # Plain text

A text may hold sequences that steer a terminal: each starts with an escape and ends by the rule of its
kind, and nothing of it shows. Of the controls outside such sequences only the blank ones show. A blank
control shows also inside a short sequence; it ends the sequence, or it pauses it for as long as what comes
shows by itself. `plain` is what shows: its characters all show by themselves (`showsAlone_of_mem_plain`),
and a text of such characters is plain already (`plain_eq_self`). -/

namespace EditorScaffold.Text

/-! ### Characters -/

/-- The escape that starts a sequence. -/
def escapeSign : Char := '\x1b'

/-- The controls that break off any sequence. -/
def isCancel (c : Char) : Bool := c = '\x18' || c = '\x1a'

/-- The controls that show as a blank. -/
def isBlankControl (c : Char) : Bool := c = '\t' || c = '\n' || c = '\x0c' || c = '\r'

/-- The characters that show outside a sequence. -/
def showsAlone (c : Char) : Bool := isBlankControl c || (' ' ≤ c && c ≠ '\x7f')

/-- Whether a character lies between two others. -/
def between (first last c : Char) : Bool := first ≤ c && c ≤ last

/-- Whether the byte that ends a string of control data is among the bytes of a character. -/
def holdsTerminator (c : Char) : Bool := (String.utf8EncodeChar c).contains 0x9c

/-! ### Sequences -/

/-- What a character is read as: text of its own, or a part of a sequence. A string of control data has a
header of parameters and intermediates; the data starts where the header ends or goes wrong. -/
inductive Mode where
  | ground
  | escape
  | intermediate
  | parameters
  | header
  | headerParameters
  | headerIntermediate
  | data
  | command
deriving DecidableEq, Repr

/-- What a blank control does to the short sequence that it stands in. -/
inductive Interruption where
  | ends
  | pauses
deriving DecidableEq, Repr

namespace Mode

/-- Whether a character shows; in a run of characters that show, what shows by itself goes on showing. -/
def shows (m : Mode) (inRun : Bool) (c : Char) : Bool :=
  if inRun then showsAlone c
  else match m with
    | ground => showsAlone c
    | escape | intermediate | parameters => isBlankControl c
    | _ => false

/-- What the character after an escape starts. -/
def opened (c : Char) : Mode :=
  if c = '[' then parameters
  else if c = ']' then command
  else if c = 'P' then header
  else if c = 'X' ∨ c = '^' ∨ c = '_' then data
  else if between ' ' '/' c then intermediate
  else if between '0' '~' c then ground
  else escape

/-- What the next character is read as, after one that does not show and is neither an escape nor a
cancel. -/
def after (m : Mode) (c : Char) : Mode :=
  match m with
  | ground => ground
  | escape => opened c
  | intermediate => if between '0' '~' c then ground else intermediate
  | parameters => if between '@' '~' c then ground else parameters
  | header =>
    if between ' ' '/' c then headerIntermediate
    else if between '0' '?' c then headerParameters
    else if between '@' '~' c then data
    else header
  | headerParameters =>
    if between ' ' '/' c then headerIntermediate
    else if between '<' '~' c then data
    else headerParameters
  | headerIntermediate => if between '0' '~' c then data else headerIntermediate
  | data => if holdsTerminator c then ground else data
  | command => if c = '\x07' then ground else command

/-- What the next character is read as, after one that does not show. -/
def next (m : Mode) (c : Char) : Mode :=
  if c = escapeSign then escape else if isCancel c then ground else m.after c

/-- What the character after a run is read as, once a character has joined the run: a paused sequence goes
on, unless there was a character beyond the ASCII ones in between. -/
def afterShown (i : Interruption) (m : Mode) (c : Char) : Mode :=
  match i with
  | .ends => ground
  | .pauses => if c ≤ '\x7f' then m else ground

end Mode

/-! ### What shows -/

/-- What shows of a text that starts in a mode, inside or outside a run of characters that show. -/
def plainFrom (i : Interruption) (m : Mode) (inRun : Bool) : Text → Text
  | [] => []
  | c :: t =>
    if m.shows inRun c then c :: plainFrom i (m.afterShown i c) true t
    else plainFrom i (m.next c) false t

/-- What shows of a text. -/
def plain (i : Interruption) (t : Text) : Text := plainFrom i .ground false t

theorem showsAlone_of_shows {m : Mode} {inRun : Bool} {c : Char} (h : m.shows inRun c) :
    showsAlone c := by
  unfold Mode.shows at h
  split at h
  · exact h
  · cases m <;> simp_all [showsAlone]

theorem showsAlone_of_mem_plainFrom {i : Interruption} {m : Mode} {inRun : Bool} {t : Text} {c : Char}
    (h : c ∈ plainFrom i m inRun t) : showsAlone c := by
  induction t generalizing m inRun with
  | nil => simp [plainFrom] at h
  | cons d t ih =>
    rw [plainFrom] at h
    split at h
    · next hd =>
      rcases List.mem_cons.1 h with rfl | h
      · exact showsAlone_of_shows hd
      · exact ih h
    · exact ih h

theorem showsAlone_of_mem_plain {i : Interruption} {t : Text} {c : Char} (h : c ∈ plain i t) :
    showsAlone c := showsAlone_of_mem_plainFrom h

theorem shows_ground (inRun : Bool) (c : Char) : Mode.shows .ground inRun c = showsAlone c := by
  cases inRun <;> rfl

theorem afterShown_ground (i : Interruption) (c : Char) : Mode.afterShown i .ground c = .ground := by
  cases i
  · rfl
  · exact ite_self _

theorem plainFrom_ground_eq_self {i : Interruption} {inRun : Bool} {t : Text}
    (h : ∀ c ∈ t, showsAlone c) : plainFrom i .ground inRun t = t := by
  induction t generalizing inRun with
  | nil => rfl
  | cons c t ih =>
    have hc : Mode.shows .ground inRun c := shows_ground inRun c ▸ h c (by simp)
    rw [plainFrom, if_pos hc, afterShown_ground, ih fun d hd => h d (by simp [hd])]

theorem plain_eq_self {i : Interruption} {t : Text} (h : ∀ c ∈ t, showsAlone c) : plain i t = t :=
  plainFrom_ground_eq_self h

end EditorScaffold.Text
