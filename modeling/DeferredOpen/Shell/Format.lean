import DeferredOpen.Shell.Arithmetic

/-!
# Formatted output

Backslashes stand for characters that are hard to write, and a percent sign for an argument, in
the form that the letters after it ask for. A format is used again while arguments are left.
-/

namespace DeferredOpen.Shell.Format

def letter? : Char → Option Char
  | '\\' => some '\\'
  | 'a' => some '\x07'
  | 'b' => some '\x08'
  | 'f' => some '\x0c'
  | 'n' => some '\n'
  | 'r' => some '\r'
  | 't' => some '\t'
  | 'v' => some '\x0b'
  | _ => none

def isOctal (c : Char) : Bool := '0' ≤ c && c ≤ '7'

def octal (ds : Text) : Char := Char.ofNat (Arithmetic.spelled 8 ds % 256)

/-- A text with its backslashes resolved, and whether it asks for the end of all output. Digits
after a zero may be three more if `zeroed`. -/
def unescape (zeroed : Bool) : Nat → Text → Text × Bool
  | _, [] => ([], false)
  | 0, t => (t, false)
  | n + 1, '\\' :: rest =>
    let add (c : Char) (after : Text) : Text × Bool :=
      let (t, ends) := unescape zeroed n after
      (c :: t, ends)
    match rest with
    | 'c' :: after => if zeroed then ([], true) else
      let (t, ends) := unescape zeroed n after
      ('\\' :: 'c' :: t, ends)
    | c :: after =>
      if zeroed ∧ c = '0' then
        let ds := (after.take 3).takeWhile isOctal
        add (octal ds) (after.drop ds.length)
      else if isOctal c then
        let ds := (rest.take 3).takeWhile isOctal
        add (octal ds) (rest.drop ds.length)
      else match letter? c with
      | some d => add d after
      | none => add '\\' rest
    | [] => (['\\'], false)
  | n + 1, c :: rest =>
    let (t, ends) := unescape zeroed n rest
    (c :: t, ends)

/-- What is written for arguments one after the other with blanks between them; a first argument
`-n` leaves out the line end. -/
def line (arguments : List Text) : Text :=
  let (withEnd, shown) := match arguments with
    | ['-', 'n'] :: rest => (false, rest)
    | all => (true, all)
  let t := [' '].intercalate shown
  let (t, ends) := unescape true t.length t
  if ends ∨ ¬ withEnd then t else t ++ ['\n']

structure Directive where
  left : Bool := false
  plus : Bool := false
  space : Bool := false
  alternate : Bool := false
  zero : Bool := false
  width : Nat := 0
  precision : Option Nat := none
  form : Char

def Directive.pad (d : Directive) (t : Text) : Text :=
  let fill := List.replicate (d.width - t.length) ' '
  if d.left then t ++ fill else fill ++ t

def digitsIn (base : Nat) (n : Nat) : Text := Nat.toDigits base n

/-- A number brought to a width: zeros come after the sign. -/
def Directive.number (d : Directive) (sign : Text) (digits : Text) : Text :=
  let digits := match d.precision with
    | some p => if p = 0 ∧ digits = ['0'] then []
      else List.replicate (p - digits.length) '0' ++ digits
    | none => digits
  let digits := if d.zero ∧ ¬ d.left ∧ d.precision.isNone then
      List.replicate (d.width - sign.length - digits.length) '0' ++ digits
    else digits
  d.pad (sign ++ digits)

/-- The number that an argument spells: a quote gives the number of the next character. What is no
number to its end is told. -/
def numberOf (t : Text) : Int × Bool :=
  match t with
  | [] => (0, true)
  | '"' :: c :: _ | '\'' :: c :: _ => (c.toNat, true)
  | _ =>
    match Arithmetic.signed? Arithmetic.constant? t with
    | some n => (n, true)
    | none =>
      let t := t.dropWhile Arithmetic.isBlank
      let (negative, ds) := match t with
        | '-' :: rest => (true, rest)
        | '+' :: rest => (false, rest)
        | _ => (false, t)
      let n : Int := match Arithmetic.constant? ds with
        | some (n, _) => (n : Int)
        | none => 0
      (if negative then -n else n, false)

/-- What is written in place of a directive, whether the argument was good, and whether it asks
for the end of all output. -/
def Directive.write (d : Directive) (argument : Text) : Text × Bool × Bool :=
  let cut (t : Text) : Text := match d.precision with
    | some p => t.take p
    | none => t
  match d.form with
  | 's' => (d.pad (cut argument), true, false)
  | 'b' =>
    let (t, ends) := unescape true argument.length argument
    (d.pad (cut t), true, ends)
  | 'c' => (d.pad [argument.head?.getD '\x00'], true, false)
  | form =>
    let (n, good) := numberOf argument
    let signed := form = 'd' || form = 'i'
    let sign : Text := if signed then
        if n < 0 then ['-'] else if d.plus then ['+'] else if d.space then [' '] else []
      else []
    let magnitude : Nat := if signed then n.natAbs else (n % Int.pow 2 64).toNat
    let digits := match form with
      | 'o' => (if d.alternate ∧ magnitude ≠ 0 then ['0'] else []) ++ digitsIn 8 magnitude
      | 'x' => digitsIn 16 magnitude
      | 'X' => (digitsIn 16 magnitude).map Char.toUpper
      | _ => digitsIn 10 magnitude
    let sign := if d.alternate ∧ magnitude ≠ 0 ∧ (form = 'x' ∨ form = 'X') then ['0', form]
      else sign
    (d.number sign digits, good, false)

structure Outcome where
  text : Text
  /-- Whether all arguments were good. -/
  good : Bool
  /-- Whether an argument asked for the end of all output. -/
  ended : Bool
  /-- Whether the format is malformed. -/
  malformed : Bool
  left : List Text

/-- A count of characters, given by digits or, for a star, by an argument. -/
def count (t : Text) (arguments : List Text) : Option Int × Text × List Text :=
  match t with
  | '*' :: rest =>
    match arguments with
    | a :: others => (some (numberOf a).1, rest, others)
    | [] => (some 0, rest, [])
  | _ =>
    let ds := t.takeWhile Char.isDigit
    (if ds.isEmpty then none else some (Arithmetic.spelled 10 ds : Int), t.drop ds.length, arguments)

/-- The directive after a percent sign, what follows it, and the arguments that are left. -/
def directive? (t : Text) (arguments : List Text) : Option (Directive × Text × List Text) :=
  let flags := t.takeWhile fun c => "#-+ 0".toList.contains c
  let t := t.drop flags.length
  let (width, t, arguments) := count t arguments
  let (precision, t, arguments) := match t with
    | '.' :: rest =>
      let (p, t, arguments) := count rest arguments
      (some ((p.getD 0).toNat), t, arguments)
    | _ => (none, t, arguments)
  match t with
  | form :: after =>
    if "diouxXscb".toList.contains form then
      let w := width.getD 0
      some ({
        left := flags.contains '-' || decide (w < 0)
        plus := flags.contains '+'
        space := flags.contains ' '
        alternate := flags.contains '#'
        zero := flags.contains '0'
        width := w.natAbs
        precision
        form }, after, arguments)
    else none
  | [] => none

def once : Nat → Text → List Text → Outcome
  | 0, _, left | _, [], left => ⟨[], true, false, false, left⟩
  | n + 1, '%' :: '%' :: rest, left =>
    let o := once n rest left
    { o with text := '%' :: o.text }
  | n + 1, '%' :: rest, left =>
    match directive? rest left with
    | none => ⟨[], true, false, true, left⟩
    | some (d, after, left) =>
      let (t, good, ends) := d.write (left.head?.getD [])
      if ends then ⟨t, good, true, false, left.drop 1⟩
      else
        let o := once n after (left.drop 1)
        { o with text := t ++ o.text, good := good && o.good }
  | n + 1, c :: rest, left =>
    let o := once n rest left
    { o with text := c :: o.text }

/-- Goes through a format until no arguments are left; once is enough if it takes none. -/
def repeated : Nat → Text → List Text → Outcome
  | 0, _, left => ⟨[], true, false, false, left⟩
  | n + 1, format, arguments =>
    let o := once format.length format arguments
    if o.ended ∨ o.malformed ∨ o.left.isEmpty ∨ o.left.length = arguments.length then o
    else
      let more := repeated n format o.left
      { more with text := o.text ++ more.text, good := o.good && more.good }

def formatted (format : Text) (arguments : List Text) : Outcome :=
  let (format, _) := unescape false format.length format
  repeated (arguments.length + 1) format arguments

end DeferredOpen.Shell.Format
