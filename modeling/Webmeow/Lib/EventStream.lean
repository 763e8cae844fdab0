import Mathlib.Data.List.Basic

/-!
# Event streams

The `text/event-stream` format as a client reads it: lines end in CR, LF or CRLF, a line is a field
or a comment, and a blank line dispatches what the fields before it said. A frame with one `event` and
one `data` field is read as one message if neither has a line break.
-/

namespace EventStream

/-! ## Reading -/

/-- The complete lines of a stream after the part `line` of a line; `cr` says that the character
before was a carriage return, to which a line feed belongs. -/
def linesFrom (cr : Bool) (line : List Char) : List Char → List (List Char)
  | [] => []
  | c :: cs =>
    if c = '\n' then
      if cr then linesFrom false [] cs else line :: linesFrom false [] cs
    else if c = '\r' then line :: linesFrom true [] cs
    else linesFrom false (line ++ [c]) cs

/-- The buffers of the parser. -/
structure Buffers where
  /-- The event type buffer. -/
  type : List Char
  /-- The data buffer. -/
  data : List Char
  /-- The last event id buffer. -/
  lastEventId : List Char

/-- A message that is dispatched. -/
structure Message where
  /-- Its type. -/
  type : List Char
  /-- Its data. -/
  data : List Char
  /-- The last event id. -/
  lastEventId : List Char
deriving DecidableEq

/-- A field; a `retry` field only sets the time before a reconnection. -/
def Buffers.field (b : Buffers) (name value : List Char) : Buffers :=
  if name = ['e', 'v', 'e', 'n', 't'] then { b with type := value }
  else if name = ['d', 'a', 't', 'a'] then { b with data := b.data ++ value ++ ['\n'] }
  else if name = ['i', 'd'] then if '\x00' ∈ value then b else { b with lastEventId := value }
  else b

/-- The value of a field starts after the colon and one space. -/
def fieldValue (afterName : List Char) : List Char :=
  match afterName.tail with
  | [] => []
  | c :: cs => if c = ' ' then cs else c :: cs

/-- The characters of a field name. -/
def isNameChar (c : Char) : Bool := c ≠ ':'

/-- A line that is not blank; with an empty name it is a comment. -/
def Buffers.line (b : Buffers) (line : List Char) : Buffers :=
  b.field (line.takeWhile isNameChar) (fieldValue (line.dropWhile isNameChar))

/-- A blank line dispatches a message, unless there is no data. -/
def Buffers.dispatch (b : Buffers) : Option Message :=
  if b.data.isEmpty then none
  else
    some ⟨if b.type.isEmpty then ['m', 'e', 's', 's', 'a', 'g', 'e'] else b.type, b.data.dropLast,
      b.lastEventId⟩

/-- The messages of the lines. -/
def interpret (b : Buffers) : List (List Char) → List Message
  | [] => []
  | line :: lines =>
    if line.isEmpty then b.dispatch.toList ++ interpret ⟨[], [], b.lastEventId⟩ lines
    else interpret (b.line line) lines

/-- The messages of a stream, which may start with a byte order mark. -/
def parse (stream : List Char) : List Message :=
  interpret ⟨[], [], []⟩ (linesFrom false []
    (match stream with
      | [] => []
      | c :: cs => if c = '\uFEFF' then cs else c :: cs))

/-! ## Writing -/

/-- The text of one message. -/
def frame (type data : List Char) : List Char :=
  ['e', 'v', 'e', 'n', 't', ':', ' '] ++ type ++ ['\n', 'd', 'a', 't', 'a', ':', ' '] ++ data ++
    ['\n', '\n']

/-- A text that fits into a line. -/
def OneLine (cs : List Char) : Prop := ∀ c ∈ cs, c ≠ '\n' ∧ c ≠ '\r'

instance (cs : List Char) : Decidable (OneLine cs) := List.decidableBAll _ cs

theorem linesFrom_line {line : List Char} (h : OneLine line) (acc rest : List Char) :
    linesFrom false acc (line ++ '\n' :: rest) = (acc ++ line) :: linesFrom false [] rest := by
  induction line generalizing acc with
  | nil => rw [List.nil_append, linesFrom, if_pos rfl, List.append_nil]; rfl
  | cons c line ih =>
    obtain ⟨hn, hr⟩ := h c List.mem_cons_self
    rw [List.cons_append, linesFrom, if_neg hn, if_neg hr,
      ih (fun c' hc' => h c' (List.mem_cons_of_mem c hc')), List.append_assoc]
    rfl

theorem OneLine.append {cs cs' : List Char} (h : OneLine cs) (h' : OneLine cs') :
    OneLine (cs ++ cs') := by
  intro c hc
  rcases List.mem_append.1 hc with hc | hc
  · exact h c hc
  · exact h' c hc

/-- The lines of a frame. -/
theorem linesFrom_frame {type data : List Char} (ht : OneLine type) (hd : OneLine data)
    (rest : List Char) :
    linesFrom false [] (frame type data ++ rest) =
      (['e', 'v', 'e', 'n', 't', ':', ' '] ++ type) :: (['d', 'a', 't', 'a', ':', ' '] ++ data) ::
        [] :: linesFrom false [] rest := by
  have hevent : OneLine ['e', 'v', 'e', 'n', 't', ':', ' '] := by decide
  have hdata : OneLine ['d', 'a', 't', 'a', ':', ' '] := by decide
  have htext : frame type data ++ rest = (['e', 'v', 'e', 'n', 't', ':', ' '] ++ type) ++
      '\n' :: ((['d', 'a', 't', 'a', ':', ' '] ++ data) ++ '\n' :: ([] ++ '\n' :: rest)) := by
    simp [frame]
  rw [htext, linesFrom_line (hevent.append ht), linesFrom_line (hdata.append hd),
    linesFrom_line (fun c hc => by cases hc)]
  rfl

/-- **A frame is one message**, and reading goes on with empty buffers. -/
theorem interpret_frame {type data : List Char} (ht : OneLine type) (hd : OneLine data)
    (hne : type ≠ []) (id rest : List Char) :
    interpret ⟨[], [], id⟩ (linesFrom false [] (frame type data ++ rest)) =
      ⟨type, data, id⟩ :: interpret ⟨[], [], id⟩ (linesFrom false [] rest) := by
  have hevent : (Buffers.mk [] [] id).line (['e', 'v', 'e', 'n', 't', ':', ' '] ++ type) =
      ⟨type, [], id⟩ := rfl
  have hdata : (Buffers.mk type [] id).line (['d', 'a', 't', 'a', ':', ' '] ++ data) =
      ⟨type, data ++ ['\n'], id⟩ := rfl
  have hdispatch : (Buffers.mk type (data ++ ['\n']) id).dispatch = some ⟨type, data, id⟩ := by
    rw [Buffers.dispatch, if_neg (by simp), if_neg (by simpa using hne), List.dropLast_concat]
  rw [linesFrom_frame ht hd, interpret, if_neg (by simp), hevent, interpret, if_neg (by simp), hdata,
    interpret, if_pos List.isEmpty_nil, hdispatch]
  rfl

/-- A type and data that make a frame. -/
structure Content where
  /-- The type. -/
  type : List Char
  /-- The data. -/
  data : List Char
  /-- The type has no line break. -/
  type_oneLine : OneLine type
  /-- The data has no line break. -/
  data_oneLine : OneLine data
  /-- The type is not empty. -/
  type_ne_nil : type ≠ []

/-- **Frames are read back**, in order, each once. -/
theorem parse_frames (contents : List Content) :
    parse (contents.flatMap fun m => frame m.type m.data) =
      contents.map fun m => ⟨m.type, m.data, []⟩ := by
  have hread : ∀ contents : List Content,
      interpret ⟨[], [], []⟩ (linesFrom false [] (contents.flatMap fun m => frame m.type m.data)) =
        contents.map fun m => ⟨m.type, m.data, []⟩ := by
    intro contents
    induction contents with
    | nil => rfl
    | cons m contents ih =>
      rw [List.flatMap_cons, interpret_frame m.type_oneLine m.data_oneLine m.type_ne_nil, ih]
      rfl
  cases contents with
  | nil => rfl
  | cons m contents => exact hread (m :: contents)

/-! ## Texts of any shape -/

/-- A text that is read as one message, whatever follows it. -/
structure Text where
  /-- The text that is written. -/
  text : List Char
  /-- The type it is read with. -/
  type : List Char
  /-- The data it is read with. -/
  data : List Char
  /-- It is read as that message whatever follows. -/
  reads : ∀ id rest, interpret ⟨[], [], id⟩ (linesFrom false [] (text ++ rest)) =
    ⟨type, data, id⟩ :: interpret ⟨[], [], id⟩ (linesFrom false [] rest)
  /-- It does not start with a byte order mark. -/
  head : ∃ c cs, text = c :: cs ∧ c ≠ '\uFEFF'

/-- A frame is read as its message. -/
theorem Content.reads (m : Content) (id rest : List Char) :
    interpret ⟨[], [], id⟩ (linesFrom false [] (frame m.type m.data ++ rest)) =
      ⟨m.type, m.data, id⟩ :: interpret ⟨[], [], id⟩ (linesFrom false [] rest) :=
  interpret_frame m.type_oneLine m.data_oneLine m.type_ne_nil id rest

/-- A frame as text. -/
def Content.text (m : Content) : Text where
  text := frame m.type m.data
  type := m.type
  data := m.data
  reads := m.reads
  head := ⟨'e', _, rfl, by decide⟩

/-- The text of a message without a type. -/
def dataFrame (data : List Char) : List Char :=
  ['d', 'a', 't', 'a', ':', ' '] ++ data ++ ['\n', '\n']

/-- A frame without a type is read as a message. -/
theorem interpret_dataFrame {data : List Char} (hd : OneLine data) (id rest : List Char) :
    interpret ⟨[], [], id⟩ (linesFrom false [] (dataFrame data ++ rest)) =
      ⟨['m', 'e', 's', 's', 'a', 'g', 'e'], data, id⟩ ::
        interpret ⟨[], [], id⟩ (linesFrom false [] rest) := by
  have hname : OneLine ['d', 'a', 't', 'a', ':', ' '] := by decide
  have htext : dataFrame data ++ rest =
      (['d', 'a', 't', 'a', ':', ' '] ++ data) ++ '\n' :: ([] ++ '\n' :: rest) := by
    simp [dataFrame]
  have hdata : (Buffers.mk [] [] id).line (['d', 'a', 't', 'a', ':', ' '] ++ data) =
      ⟨[], data ++ ['\n'], id⟩ := rfl
  have hdispatch : (Buffers.mk [] (data ++ ['\n']) id).dispatch =
      some ⟨['m', 'e', 's', 's', 'a', 'g', 'e'], data, id⟩ := by
    rw [Buffers.dispatch, if_neg (by simp), if_pos List.isEmpty_nil, List.dropLast_concat]
  rw [htext, linesFrom_line (hname.append hd), linesFrom_line (fun c hc => by cases hc), interpret,
    if_neg (by simp), List.nil_append, hdata, List.nil_append, interpret, if_pos List.isEmpty_nil,
    hdispatch]
  rfl

/-- A frame without a type as text. -/
def dataText (data : List Char) (hd : OneLine data) : Text where
  text := dataFrame data
  type := ['m', 'e', 's', 's', 'a', 'g', 'e']
  data := data
  reads := interpret_dataFrame hd
  head := ⟨'d', _, rfl, by decide⟩

/-- **Texts are read back**, in order, each once. -/
theorem parse_texts (texts : List Text) :
    parse (texts.flatMap Text.text) = texts.map fun t => ⟨t.type, t.data, []⟩ := by
  have hread : ∀ texts : List Text,
      interpret ⟨[], [], []⟩ (linesFrom false [] (texts.flatMap Text.text)) =
        texts.map fun t => ⟨t.type, t.data, []⟩ := by
    intro texts
    induction texts with
    | nil => rfl
    | cons t texts ih =>
      rw [List.flatMap_cons, t.reads, ih]
      rfl
  cases texts with
  | nil => rfl
  | cons t texts =>
    obtain ⟨c, cs, htext, hc⟩ := t.head
    have hmark : (match (t :: texts).flatMap Text.text with
        | [] => []
        | c :: cs => if c = '\uFEFF' then cs else c :: cs) = (t :: texts).flatMap Text.text := by
      rw [List.flatMap_cons, htext, List.cons_append]
      exact if_neg hc
    unfold parse
    rw [hmark, hread]

/-! ## Reading a part -/

theorem linesFrom_append (cr : Bool) (line s t : List Char) :
    ∃ cr' line', linesFrom cr line (s ++ t) = linesFrom cr line s ++ linesFrom cr' line' t := by
  induction s generalizing cr line with
  | nil => exact ⟨cr, line, rfl⟩
  | cons c s ih =>
    rw [List.cons_append, linesFrom, linesFrom]
    split_ifs
    · exact ih false []
    · obtain ⟨cr', line', h⟩ := ih false []
      exact ⟨cr', line', by rw [h, List.cons_append]⟩
    · obtain ⟨cr', line', h⟩ := ih true []
      exact ⟨cr', line', by rw [h, List.cons_append]⟩
    · exact ih false (line ++ [c])

theorem interpret_append (b : Buffers) (ls ls' : List (List Char)) :
    ∃ b', interpret b (ls ++ ls') = interpret b ls ++ interpret b' ls' := by
  induction ls generalizing b with
  | nil => exact ⟨b, rfl⟩
  | cons line ls ih =>
    rw [List.cons_append, interpret, interpret]
    split_ifs
    · obtain ⟨b', h⟩ := ih ⟨[], [], b.lastEventId⟩
      exact ⟨b', by rw [h, List.append_assoc]⟩
    · exact ih (b.line line)

/-- **A part of a stream** is read as a part of its messages. -/
theorem parse_of_begun {s t : List Char} (h : s <+: t) : parse s <+: parse t := by
  obtain ⟨rest, rfl⟩ := h
  cases s with
  | nil => exact List.nil_prefix
  | cons c s =>
    have hpart : ∀ s, interpret ⟨[], [], []⟩ (linesFrom false [] s) <+:
        interpret ⟨[], [], []⟩ (linesFrom false [] (s ++ rest)) := by
      intro s
      obtain ⟨cr, line, hlines⟩ := linesFrom_append false [] s rest
      obtain ⟨b, hinterpret⟩ := interpret_append ⟨[], [], []⟩ (linesFrom false [] s)
        (linesFrom cr line rest)
      rw [hlines, hinterpret]
      exact List.prefix_append _ _
    by_cases hc : c = '\uFEFF'
    · rw [List.cons_append, parse, parse]
      simp only [if_pos hc]
      exact hpart s
    · rw [List.cons_append, parse, parse]
      simp only [if_neg hc]
      exact hpart (c :: s)

end EventStream
