/-
Scripts of the POSIX shell (the shell library).

`script` reads a text as simple commands in which nothing is expanded: words with
quotes and backslashes, continued lines, comments, and here-documents whose
delimiter is quoted.  An expansion, an operator, an assignment or a reserved word is
refused, so the words of a command that is read are the arguments it is run with.

* `run_append` — a text is read part by part;
* `run_quoteWith` — a text between single quotes is read back, however a single quote in
  it is written;
* `run_document` — the lines of a here-document are its standard input;
* `script_join` — words that are quoted and joined are read back.
-/
import ShellgeiOnlineJudge.Utf8

namespace Shell

open Utf8

/-- A simple command, with the here-document that it reads. -/
structure Command where
  words : List Text
  stdin : Option Text
  deriving DecidableEq

/-- What was read of the line before the word that is being read. -/
structure Line where
  commands : List Command
  words : List Text
  /-- behind `<<` -/
  awaiting : Bool
  delimiter : Option Text
  stdin : Text
  deriving DecidableEq

/-- Where in the line the reader stands, with what it read of the word. -/
inductive Mode
  | between
  | betweenEscaped
  | bare (word : Text) (quoted : Bool)
  | bareEscaped (word : Text) (quoted : Bool)
  | single (word : Text)
  | double (word : Text)
  | doubleEscaped (word : Text)
  | comment
  /-- behind one `<` -/
  | less
  /-- behind `<<` -/
  | operand
  /-- inside a here-document -/
  | document (line : Text)
  deriving DecidableEq

/-- The characters that separate words. -/
def isBlank (c : Char) : Bool := c = ' ' || c = '\t'

/-- What an unquoted character starts an expansion or an operator with. -/
def specials : List Char :=
  ['$', Char.ofNat 0x60, ';', '&', '|', '(', ')', '<', '>', '*', '?', '[', '~', '\x7b', '\x7d', '!']

/-- The words that begin or end compound commands, which are not read. -/
def reservedWords : List Text :=
  ["case".toList, "do".toList, "done".toList, "elif".toList, "else".toList, "esac".toList,
    "fi".toList, "for".toList, "if".toList, "in".toList, "then".toList, "until".toList,
    "while".toList]

/-- Whether the first word of a command names what is run. -/
def isCommandName (word : Text) : Bool := !reservedWords.contains word && !word.contains '='

/-! ### Reading -/

/-- A word ends: it is an argument or the delimiter of a here-document. -/
def endWord (l : Line) (word : Text) (quoted : Bool) : Option Line :=
  if l.awaiting then
    -- the lines behind an unquoted delimiter are expanded
    if quoted then some { l with awaiting := false, delimiter := some word } else none
  else some { l with words := l.words ++ [word] }

/-- The command of a line, or nothing for an empty one. -/
def endCommand (l : Line) (stdin : Option Text) : Option Line :=
  match l.words with
  | [] => if stdin.isSome then none else some l
  | name :: arguments =>
    if isCommandName name then
      some ⟨l.commands ++ [⟨name :: arguments, stdin⟩], [], false, none, []⟩
    else none

/-- A line ends: a command, or the line before a here-document. -/
def endLine (l : Line) : Option (Line × Mode) :=
  if l.awaiting then none
  else if l.delimiter.isSome then some (l, .document [])
  else (endCommand l none).map fun l => (l, .between)

/-- A character inside a word, outside quotes. -/
def stepBare (l : Line) (word : Text) (quoted : Bool) (c : Char) : Option (Line × Mode) :=
  if isBlank c then (endWord l word quoted).map fun l => (l, .between)
  else if c = '\n' then (endWord l word quoted).bind endLine
  else if c = '\'' then some (l, .single word)
  else if c = '"' then some (l, .double word)
  else if c = '\\' then some (l, .bareEscaped word quoted)
  else if specials.contains c then none
  else some (l, .bare (word ++ [c]) quoted)

/-- A character between words. -/
def stepBetween (l : Line) (c : Char) : Option (Line × Mode) :=
  if isBlank c then some (l, .between)
  else if c = '\n' then endLine l
  else if c = '#' then if l.awaiting then none else some (l, .comment)
  else if c = '\\' then some (l, .betweenEscaped)
  else if c = '<' then if l.awaiting || l.delimiter.isSome then none else some (l, .less)
  else stepBare l [] false c

/-- A character between double quotes; nothing is expanded there. -/
def stepDouble (l : Line) (word : Text) (c : Char) : Option (Line × Mode) :=
  if c = '"' then some (l, .bare word true)
  else if c = '\\' then some (l, .doubleEscaped word)
  else if c = '$' || c = Char.ofNat 0x60 then none
  else some (l, .double (word ++ [c]))

/-- A character of a here-document. -/
def stepDocument (l : Line) (line : Text) (c : Char) : Option (Line × Mode) :=
  if c = '\n' then
    if some line = l.delimiter then (endCommand l (some l.stdin)).map fun l => (l, .between)
    else some ({ l with stdin := l.stdin ++ line ++ ['\n'] }, .document [])
  else some (l, .document (line ++ [c]))

/-- Read one character. -/
def step : Line × Mode → Char → Option (Line × Mode)
  | (l, .between), c => stepBetween l c
  -- a backslash before the end of a line continues it
  | (l, .betweenEscaped), c => some (l, if c = '\n' then .between else .bare [c] true)
  | (l, .bare word quoted), c => stepBare l word quoted c
  | (l, .bareEscaped word quoted), c =>
    some (l, if c = '\n' then .bare word quoted else .bare (word ++ [c]) true)
  | (l, .single word), c => some (l, if c = '\'' then .bare word true else .single (word ++ [c]))
  | (l, .double word), c => stepDouble l word c
  | (l, .doubleEscaped word), c =>
    some (l, .double (
      if c = '\n' then word
      else if c = '$' || c = Char.ofNat 0x60 || c = '"' || c = '\\' then word ++ [c]
      else word ++ ['\\', c]))
  | (l, .comment), c => if c = '\n' then endLine l else some (l, .comment)
  | (l, .less), c => if c = '<' then some ({ l with awaiting := true }, .operand) else none
  -- `<<-` and `<<<` are other operators
  | (l, .operand), c => if c = '-' || c = '<' then none else stepBetween l c
  | (l, .document line), c => stepDocument l line c

/-- Read a text from a state on. -/
def run (state : Line × Mode) (text : Text) : Option (Line × Mode) := text.foldlM step state

/-- Nothing was read of the command. -/
def start : Line := ⟨[], [], false, none, []⟩

/-- The commands of a script, whose last line may lack its end. -/
def script (text : Text) : Option (List Command) := do
  let (l, mode) ← run (start, .between) (text ++ ['\n'])
  if mode = .between then some l.commands else none

/-! ### Reading part by part -/

section

variable {l : Line} {state : Line × Mode} {word : Text}

@[simp] theorem run_nil : run state [] = some state := rfl

theorem run_cons (c : Char) (text : Text) :
    run state (c :: text) = (step state c).bind fun state => run state text := rfl

theorem run_append (a b : Text) :
    run state (a ++ b) = (run state a).bind fun state => run state b := by
  rw [run, List.foldlM_append]
  rfl

theorem run_single {text : Text} (h : '\'' ∉ text) :
    run (l, .single word) text = some (l, .single (word ++ text)) := by
  induction text generalizing word with
  | nil => rw [List.append_nil, run_nil]
  | cons c rest ih =>
    obtain ⟨hc, hrest⟩ := not_or.1 fun hc => h (List.mem_cons.2 hc)
    have hstep : step (l, .single word) c = some (l, .single (word ++ [c])) := by
      rw [step, if_neg (Ne.symm hc)]
    rw [run_cons, hstep, Option.bind_some, ih hrest, List.append_assoc, List.singleton_append]

/-! ### Quoting -/

/-- A text between single quotes, where a single quote is written as `escape`. -/
def quoteWith (escape text : Text) : Text :=
  '\'' :: (text.flatMap (fun c => if c = '\'' then escape else [c]) ++ ['\''])

/-- The text leaves the quotes, adds a single quote to the word and enters them again. -/
def IsEscape (escape : Text) : Prop :=
  ∀ l word, run (l, .single word) escape = some (l, .single (word ++ ['\'']))

theorem run_escaped {escape : Text} (hescape : IsEscape escape) (text : Text) :
    run (l, .single word) (text.flatMap fun c => if c = '\'' then escape else [c]) =
      some (l, .single (word ++ text)) := by
  induction text generalizing word with
  | nil =>
    show some (l, Mode.single word) = _
    rw [List.append_nil]
  | cons c rest ih =>
    have hchar : run (l, .single word) (if c = '\'' then escape else [c]) =
        some (l, .single (word ++ [c])) := by
      by_cases hc : c = '\''
      · rw [if_pos hc, hc]
        exact hescape l word
      · rw [if_neg hc]
        exact run_single (by simpa using Ne.symm hc)
    rw [List.flatMap_cons, run_append, hchar, Option.bind_some, ih, List.append_assoc,
      List.singleton_append]

theorem run_quoteWith {escape : Text} (hescape : IsEscape escape) (text : Text) :
    run (l, .between) (quoteWith escape text) = some (l, .bare text true) := by
  have hopen : step (l, .between) '\'' = some (l, .single []) := rfl
  rw [quoteWith, run_cons, hopen, Option.bind_some, run_append, run_escaped hescape,
    Option.bind_some, List.nil_append]
  rfl

/-- `'\\''` -/
def backslashEscape : Text := ['\'', '\\', '\'', '\'']

/-- `'"'"'` -/
def doubleQuoteEscape : Text := ['\'', '"', '\'', '"', '\'']

theorem isEscape_backslash : IsEscape backslashEscape := fun _ _ => rfl

theorem isEscape_doubleQuote : IsEscape doubleQuoteEscape := fun _ _ => rfl

/-! ### Words -/

/-- The text is read as this word. -/
def Reads (text word : Text) : Prop :=
  ∀ l, ∃ quoted, run (l, .between) text = some (l, .bare word quoted)

theorem reads_quoteWith {escape : Text} (hescape : IsEscape escape) (text : Text) :
    Reads (quoteWith escape text) text :=
  fun _ => ⟨true, run_quoteWith hescape text⟩

/-- What does not stand for itself, somewhere in a word. -/
def metaCharacters : List Char := [' ', '\t', '\n', '#', '\\', '\'', '"'] ++ specials

/-- A character that means itself outside quotes. -/
def isPlain (c : Char) : Bool := !metaCharacters.contains c

theorem ne_of_isPlain {c d : Char} (h : isPlain c = true)
    (hd : metaCharacters.contains d = true) : c ≠ d := by
  rintro rfl
  rw [isPlain, hd] at h
  cases h

theorem isBlank_of_isPlain {c : Char} (h : isPlain c = true) : isBlank c = false := by
  have hspace := ne_of_isPlain h (d := ' ') rfl
  have htab := ne_of_isPlain h (d := '\t') rfl
  simp [isBlank, hspace, htab]

theorem not_special_of_isPlain {c : Char} (h : isPlain c = true) :
    specials.contains c = false := by
  rw [isPlain, Bool.not_eq_true', metaCharacters, List.contains_append] at h
  exact (Bool.or_eq_false_iff.1 h).2

theorem stepBare_of_isPlain {c : Char} (h : isPlain c = true) (quoted : Bool) :
    stepBare l word quoted c = some (l, .bare (word ++ [c]) quoted) := by
  rw [stepBare, if_neg (by simp [isBlank_of_isPlain h]), if_neg (ne_of_isPlain h rfl),
    if_neg (ne_of_isPlain h rfl), if_neg (ne_of_isPlain h rfl), if_neg (ne_of_isPlain h rfl),
    if_neg (by rw [not_special_of_isPlain h]; decide)]

theorem run_bare_of_isPlain {text : Text} (h : text.all isPlain = true) (quoted : Bool) :
    run (l, .bare word quoted) text = some (l, .bare (word ++ text) quoted) := by
  induction text generalizing word with
  | nil => rw [List.append_nil, run_nil]
  | cons c rest ih =>
    obtain ⟨hc, hrest⟩ := Bool.and_eq_true_iff.1 h
    have hstep : step (l, .bare word quoted) c = some (l, .bare (word ++ [c]) quoted) :=
      stepBare_of_isPlain hc quoted
    rw [run_cons, hstep, Option.bind_some, ih hrest, List.append_assoc, List.singleton_append]

theorem reads_of_isPlain {text : Text} (hne : text ≠ []) (h : text.all isPlain = true) :
    Reads text text := by
  intro l
  cases text with
  | nil => exact absurd rfl hne
  | cons c rest =>
    obtain ⟨hc, hrest⟩ := Bool.and_eq_true_iff.1 h
    have hstep : step (l, .between) c = some (l, .bare [c] false) := by
      show stepBetween l c = _
      rw [stepBetween, if_neg (by simp [isBlank_of_isPlain hc]), if_neg (ne_of_isPlain hc rfl),
        if_neg (ne_of_isPlain hc rfl), if_neg (ne_of_isPlain hc rfl),
        if_neg (ne_of_isPlain hc rfl)]
      exact stepBare_of_isPlain hc false
    exact ⟨false, by rw [run_cons, hstep, Option.bind_some, run_bare_of_isPlain hrest]; rfl⟩

/-- A word behind another one. -/
theorem Reads.run_blank {text : Text} (h : Reads text word) (hawaiting : l.awaiting = false) :
    run (l, .between) (text ++ [' ']) =
      some ({ l with words := l.words ++ [word] }, .between) := by
  obtain ⟨quoted, hrun⟩ := h l
  rw [run_append, hrun, Option.bind_some, run_cons]
  show ((endWord l word quoted).map _).bind _ = _
  rw [endWord, if_neg (by simp [hawaiting])]
  rfl

/-- The last word of a line. -/
theorem Reads.run_newline {text : Text} (h : Reads text word) (hawaiting : l.awaiting = false) :
    run (l, .between) (text ++ ['\n']) = endLine { l with words := l.words ++ [word] } := by
  obtain ⟨quoted, hrun⟩ := h l
  have hend : step (l, .bare word quoted) '\n' = (endWord l word quoted).bind endLine := rfl
  rw [run_append, hrun, Option.bind_some, run_cons, hend, endWord, if_neg (by simp [hawaiting]),
    Option.bind_some]
  exact Option.bind_fun_some _

/-! ### Here-documents -/

/-- A line of a here-document. -/
theorem run_document {delimiter line : Text} (hline : '\n' ∉ line) (hl : l.delimiter = some delimiter)
    (hne : line ≠ delimiter) :
    run (l, .document []) (line ++ ['\n']) =
      some ({ l with stdin := l.stdin ++ line ++ ['\n'] }, .document []) := by
  have hread : ∀ (text front : Text), '\n' ∉ text →
      run (l, .document front) text = some (l, .document (front ++ text)) := by
    intro text
    induction text with
    | nil =>
      intro front _
      rw [List.append_nil, run_nil]
    | cons c rest ih =>
      intro front h
      obtain ⟨hc, hrest⟩ := not_or.1 fun hc => h (List.mem_cons.2 hc)
      have hstep : step (l, .document front) c = some (l, .document (front ++ [c])) := by
        show stepDocument l front c = _
        rw [stepDocument, if_neg (Ne.symm hc)]
      rw [run_cons, hstep, Option.bind_some, ih _ hrest, List.append_assoc, List.singleton_append]
  have hend : step (l, .document line) '\n' =
      some ({ l with stdin := l.stdin ++ line ++ ['\n'] }, .document []) := by
    show stepDocument l line '\n' = _
    rw [stepDocument, if_pos rfl, hl, if_neg fun h => hne (Option.some.inj h)]
  rw [run_append, hread line [] hline, Option.bind_some, List.nil_append, run_cons, hend]
  rfl

end

/-! ### `shlex` -/

/-- `[\w@%+=:,.-]` or a slash, in ASCII -/
def isSafe (c : Char) : Bool :=
  c.isAlphanum || ['_', '@', '%', '+', '=', ':', ',', '.', '/', '-'].contains c

/-- `shlex.quote` -/
def quote (text : Text) : Text :=
  if text.isEmpty then ['\'', '\'']
  else if text.all isSafe then text
  else quoteWith doubleQuoteEscape text

/-- `shlex.join` -/
def join (words : List Text) : Text := [' '].intercalate (words.map quote)

theorem isPlain_of_isSafe {c : Char} (h : isSafe c = true) : isPlain c = true := by
  have hmeta : (metaCharacters.all fun d => !isSafe d) = true := by decide
  rw [isPlain, Bool.not_eq_true', Bool.eq_false_iff]
  intro hc
  have hunsafe := List.all_eq_true.1 hmeta c (List.contains_iff_mem.1 hc)
  rw [h] at hunsafe
  cases hunsafe

theorem reads_quote (text : Text) : Reads (quote text) text := by
  unfold quote
  split
  · next h =>
    rw [List.isEmpty_iff.1 h]
    exact fun _ => ⟨true, rfl⟩
  · next hne =>
    split
    · next hsafe =>
      refine reads_of_isPlain (fun h => hne (List.isEmpty_iff.2 h)) (List.all_eq_true.2 ?_)
      exact fun c hc => isPlain_of_isSafe (List.all_eq_true.1 hsafe c hc)
    · exact reads_quoteWith isEscape_doubleQuote text

/-- Words that are quoted and joined are the words of the line. -/
theorem run_join {l : Line} (hawaiting : l.awaiting = false) {words : List Text}
    (hne : words ≠ []) :
    run (l, .between) (join words ++ ['\n']) = endLine { l with words := l.words ++ words } := by
  induction words generalizing l with
  | nil => exact absurd rfl hne
  | cons word rest ih =>
    cases rest with
    | nil =>
      rw [join, List.map_singleton, List.intercalate_singleton]
      exact (reads_quote word).run_newline hawaiting
    | cons next rest =>
      have hjoin : join (word :: next :: rest) = quote word ++ [' '] ++ join (next :: rest) := by
        rw [join, List.map_cons, List.map_cons, List.intercalate_cons_cons]
        rfl
      rw [hjoin, List.append_assoc, run_append, (reads_quote word).run_blank hawaiting,
        Option.bind_some,
        @ih { l with words := l.words ++ [word] } hawaiting (List.cons_ne_nil next rest)]
      simp only [List.append_assoc, List.singleton_append]

/-- The shell runs the words that were joined, when the first of them is a command. -/
theorem script_join {name : Text} (arguments : List Text) (hname : isCommandName name = true) :
    script (join (name :: arguments)) = some [⟨name :: arguments, none⟩] := by
  have hend : endLine { start with words := start.words ++ name :: arguments } =
      some (⟨[⟨name :: arguments, none⟩], [], false, none, []⟩, .between) := by
    show (endCommand _ none).map _ = _
    rw [endCommand]
    show ((if isCommandName name = true then _ else none) : Option Line).map _ = _
    rw [if_pos hname]
    rfl
  rw [script, run_join rfl (by simp), hend]
  rfl

end Shell
