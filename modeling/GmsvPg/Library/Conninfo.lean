/-
# Connection strings

The keyword/value connection strings of libpq: pairs `keyword = value` separated by
whitespace.  A quoted value runs to the next single quote, an unquoted one to the next
whitespace, and in both a backslash makes the next character literal.  The parser reads the
string character by character, as libpq does.  `Encodes` says how settings can be written
down; whatever it allows, the parser reads back.
-/
import Mathlib.Data.List.TakeWhile

namespace GmsvPg.Library.Conninfo

/-- A keyword with its value. -/
abbrev Setting : Type := List Char × List Char

/-- `isspace`, in the C locale. -/
def isSpace (c : Char) : Bool :=
  c == ' ' || c == '\t' || c == '\n' || c == '\x0b' || c == '\x0c' || c == '\r'

/-- What C code reads of a string. -/
def cString (cs : List Char) : List Char := cs.takeWhile (· != '\x00')

/-- Where the parser stands, with what it has read of the current pair. -/
inductive Scan
  | between
  | keyword (read : List Char)
  | afterKeyword (keyword : List Char)
  | beforeValue (keyword : List Char)
  | unquoted (keyword read : List Char)
  | unquotedEscape (keyword read : List Char)
  | quoted (keyword read : List Char)
  | quotedEscape (keyword read : List Char)
deriving DecidableEq, Repr

namespace Scan

/-- One character: where the parser stands afterwards, and the pair it has completed; `none`
if it reports an error. -/
def next (c : Char) : Scan → Option (Scan × List Setting)
  | between =>
      if isSpace c then some (between, [])
      else if c = '=' then some (beforeValue [], [])
      else some (keyword [c], [])
  | keyword read =>
      if c = '=' then some (beforeValue read, [])
      else if isSpace c then some (afterKeyword read, [])
      else some (keyword (read ++ [c]), [])
  | afterKeyword key =>
      if isSpace c then some (afterKeyword key, [])
      else if c = '=' then some (beforeValue key, [])
      else none
  | beforeValue key =>
      if isSpace c then some (beforeValue key, [])
      else if c = '\'' then some (quoted key [], [])
      else if c = '\\' then some (unquotedEscape key [], [])
      else some (unquoted key [c], [])
  | unquoted key read =>
      if isSpace c then some (between, [(key, read)])
      else if c = '\\' then some (unquotedEscape key read, [])
      else some (unquoted key (read ++ [c]), [])
  | unquotedEscape key read => some (unquoted key (read ++ [c]), [])
  | quoted key read =>
      if c = '\\' then some (quotedEscape key read, [])
      else if c = '\'' then some (between, [(key, read)])
      else some (quoted key (read ++ [c]), [])
  | quotedEscape key read => some (quoted key (read ++ [c]), [])

/-- The end of the string.  A keyword without a value and a quoted value without its second
quote are errors. -/
def finish : Scan → Option (List Setting)
  | between => some []
  | beforeValue key => some [(key, [])]
  | unquoted key read | unquotedEscape key read => some [(key, read)]
  | keyword _ | afterKeyword _ | quoted _ _ | quotedEscape _ _ => none

end Scan

/-- The parser. -/
def parseFrom : Scan → List Char → Option (List Setting)
  | s, [] => s.finish
  | s, c :: cs =>
      match s.next c with
      | none => none
      | some (s', settings) => (parseFrom s' cs).map (settings ++ ·)

/-- The settings of a connection string, in order. -/
def parse (cs : List Char) : Option (List Setting) := parseFrom .between cs

/-- The value that a keyword has: the last one counts. -/
def lastValue (key : List Char) : List Setting → Option (List Char)
  | [] => none
  | (k, v) :: rest => (lastValue key rest).or (if k = key then some v else none)

/-! ### Writing settings down -/

/-- The text of a value between quotes. -/
inductive QuotedForm : List Char → List Char → Prop
  | nil : QuotedForm [] []
  | plain {c : Char} {value form : List Char} :
      c ≠ '\\' → c ≠ '\'' → QuotedForm value form → QuotedForm (c :: value) (c :: form)
  | escaped {c : Char} {value form : List Char} :
      QuotedForm value form → QuotedForm (c :: value) ('\\' :: c :: form)

/-- A keyword is not empty, and the parser does not stop inside it. -/
structure IsKeyword (key : List Char) : Prop where
  ne_nil : key ≠ []
  mem : ∀ c ∈ key, c ≠ '=' ∧ isSpace c = false

/-- A value that needs no quotes. -/
structure IsBare (value : List Char) : Prop where
  ne_nil : value ≠ []
  mem : ∀ c ∈ value, isSpace c = false ∧ c ≠ '\'' ∧ c ≠ '\\'

/-- The text gives the settings, one after the other, each with a blank behind it. -/
inductive Encodes : List Setting → List Char → Prop
  | nil : Encodes [] []
  | quoted {key value form text : List Char} {settings : List Setting} :
      IsKeyword key → QuotedForm value form → Encodes settings text →
      Encodes ((key, value) :: settings) (key ++ '=' :: '\'' :: form ++ '\'' :: ' ' :: text)
  | bare {key value text : List Char} {settings : List Setting} :
      IsKeyword key → IsBare value → Encodes settings text →
      Encodes ((key, value) :: settings) (key ++ '=' :: value ++ ' ' :: text)

/-- Texts can be put one behind the other. -/
lemma Encodes.append {settings settings' : List Setting} {text text' : List Char}
    (h : Encodes settings text) (h' : Encodes settings' text') :
    Encodes (settings ++ settings') (text ++ text') := by
  induction h with
  | nil => exact h'
  | quoted hkey hform _ ih =>
      have happend := Encodes.quoted hkey hform ih
      simpa only [List.cons_append, List.append_assoc] using happend
  | bare hkey hbare _ ih =>
      have happend := Encodes.bare hkey hbare ih
      simpa only [List.cons_append, List.append_assoc] using happend

lemma QuotedForm.notMem {c : Char} {value form : List Char} (h : QuotedForm value form)
    (hescape : c ≠ '\\') (hvalue : c ∉ value) : c ∉ form := by
  induction h with
  | nil => exact hvalue
  | plain _ _ _ ih =>
      obtain ⟨hne, hvalue⟩ := List.ne_and_not_mem_of_not_mem_cons hvalue
      exact List.not_mem_cons_of_ne_of_not_mem hne (ih hvalue)
  | escaped _ ih =>
      obtain ⟨hne, hvalue⟩ := List.ne_and_not_mem_of_not_mem_cons hvalue
      exact List.not_mem_cons_of_ne_of_not_mem hescape
        (List.not_mem_cons_of_ne_of_not_mem hne (ih hvalue))

/-- Apart from the characters of the grammar, a text has the characters of its settings. -/
lemma Encodes.notMem {c : Char} {settings : List Setting} {text : List Char}
    (h : Encodes settings text) (hc : c ≠ '=' ∧ c ≠ '\'' ∧ c ≠ '\\' ∧ c ≠ ' ')
    (hsettings : ∀ setting ∈ settings, c ∉ setting.1 ∧ c ∉ setting.2) : c ∉ text := by
  obtain ⟨heq, hquote, hescape, hblank⟩ := hc
  induction h with
  | nil => exact List.not_mem_nil
  | quoted _ hform _ ih =>
      obtain ⟨hkey, hvalue⟩ := hsettings _ List.mem_cons_self
      have hrest := ih fun setting hs => hsettings setting (List.mem_cons_of_mem _ hs)
      simp [hkey, heq, hquote, hform.notMem hescape hvalue, hblank, hrest]
  | bare _ _ _ ih =>
      obtain ⟨hkey, hvalue⟩ := hsettings _ List.mem_cons_self
      have hrest := ih fun setting hs => hsettings setting (List.mem_cons_of_mem _ hs)
      simp [hkey, heq, hvalue, hblank, hrest]

/-! ### Reading them back -/

section read

variable {key read value form text : List Char} {c : Char} {s s' : Scan}
  {settings : List Setting}

/-- The parser takes a step without completing a pair. -/
lemma parseFrom_step (h : s.next c = some (s', [])) (cs : List Char) :
    parseFrom s (c :: cs) = parseFrom s' cs := by
  rw [parseFrom, h]
  exact Option.map_id'

/-- The parser completes a pair. -/
lemma parseFrom_complete {pair : Setting} (h : s.next c = some (s', [pair])) (cs : List Char) :
    parseFrom s (c :: cs) = (parseFrom s' cs).map (pair :: ·) := by
  rw [parseFrom, h]
  rfl

lemma parseFrom_keyword (hkey : ∀ c ∈ key, c ≠ '=' ∧ isSpace c = false) (text : List Char) :
    parseFrom (.keyword read) (key ++ '=' :: text) = parseFrom (.beforeValue (read ++ key)) text := by
  induction key generalizing read with
  | nil =>
      have hnext : (Scan.keyword read).next '=' = some (.beforeValue read, []) := rfl
      rw [List.nil_append, List.append_nil, parseFrom_step hnext]
  | cons c key ih =>
      obtain ⟨heq, hspace⟩ := hkey c List.mem_cons_self
      have hnext : (Scan.keyword read).next c = some (.keyword (read ++ [c]), []) := by
        rw [Scan.next, if_neg heq, hspace, if_neg Bool.false_ne_true]
      rw [List.cons_append, parseFrom_step hnext,
        ih fun c' hc' => hkey c' (List.mem_cons_of_mem _ hc'), List.append_assoc,
        List.singleton_append]

/-- A keyword at the beginning of a pair. -/
lemma parseFrom_between (hkey : IsKeyword key) (text : List Char) :
    parseFrom .between (key ++ '=' :: text) = parseFrom (.beforeValue key) text := by
  cases key with
  | nil => exact absurd rfl hkey.ne_nil
  | cons c key =>
      obtain ⟨heq, hspace⟩ := hkey.mem c List.mem_cons_self
      have hnext : Scan.between.next c = some (.keyword [c], []) := by
        rw [Scan.next, hspace, if_neg Bool.false_ne_true, if_neg heq]
      rw [List.cons_append, parseFrom_step hnext,
        parseFrom_keyword fun c' hc' => hkey.mem c' (List.mem_cons_of_mem _ hc')]
      rfl

/-- A quoted value, from its first character on. -/
lemma parseFrom_quoted (hform : QuotedForm value form) (text : List Char) :
    parseFrom (.quoted key read) (form ++ '\'' :: text) =
      (parseFrom .between text).map ((key, read ++ value) :: ·) := by
  induction hform generalizing read with
  | nil =>
      rw [List.nil_append, List.append_nil]
      exact parseFrom_complete rfl text
  | @plain c value form hescape hquote _ ih =>
      have hnext : (Scan.quoted key read).next c = some (.quoted key (read ++ [c]), []) := by
        rw [Scan.next, if_neg hescape, if_neg hquote]
      rw [List.cons_append, parseFrom_step hnext, ih, List.append_assoc, List.singleton_append]
  | @escaped c value form _ ih =>
      have hescape : (Scan.quoted key read).next '\\' = some (.quotedEscape key read, []) := rfl
      have hnext : (Scan.quotedEscape key read).next c = some (.quoted key (read ++ [c]), []) := rfl
      rw [List.cons_append, List.cons_append, parseFrom_step hescape, parseFrom_step hnext, ih,
        List.append_assoc, List.singleton_append]

lemma parseFrom_unquoted (hvalue : ∀ c ∈ value, isSpace c = false ∧ c ≠ '\'' ∧ c ≠ '\\')
    (text : List Char) :
    parseFrom (.unquoted key read) (value ++ ' ' :: text) =
      (parseFrom .between text).map ((key, read ++ value) :: ·) := by
  induction value generalizing read with
  | nil =>
      rw [List.nil_append, List.append_nil]
      exact parseFrom_complete rfl text
  | cons c value ih =>
      obtain ⟨hspace, -, hescape⟩ := hvalue c List.mem_cons_self
      have hnext : (Scan.unquoted key read).next c = some (.unquoted key (read ++ [c]), []) := by
        rw [Scan.next, hspace, if_neg Bool.false_ne_true, if_neg hescape]
      rw [List.cons_append, parseFrom_step hnext,
        ih fun c' hc' => hvalue c' (List.mem_cons_of_mem _ hc'), List.append_assoc,
        List.singleton_append]

/-- A value without quotes. -/
lemma parseFrom_bare (hbare : IsBare value) (text : List Char) :
    parseFrom (.beforeValue key) (value ++ ' ' :: text) =
      (parseFrom .between text).map ((key, value) :: ·) := by
  cases value with
  | nil => exact absurd rfl hbare.ne_nil
  | cons c value =>
      obtain ⟨hspace, hquote, hescape⟩ := hbare.mem c List.mem_cons_self
      have hnext : (Scan.beforeValue key).next c = some (.unquoted key [c], []) := by
        rw [Scan.next, hspace, if_neg Bool.false_ne_true, if_neg hquote, if_neg hescape]
      rw [List.cons_append, parseFrom_step hnext,
        parseFrom_unquoted fun c' hc' => hbare.mem c' (List.mem_cons_of_mem _ hc')]
      rfl

/-- The blank behind a pair is skipped. -/
lemma parseFrom_blank (text : List Char) :
    parseFrom .between (' ' :: text) = parseFrom .between text := parseFrom_step rfl text

/-- **The parser reads back what was written down.** -/
theorem parse_of_encodes (h : Encodes settings text) : parse text = some settings := by
  unfold parse
  induction h with
  | nil => rfl
  | @quoted key value form text settings hkey hform _ ih =>
      have hopen : (Scan.beforeValue key).next '\'' = some (.quoted key [], []) := rfl
      rw [List.append_assoc, List.cons_append, List.cons_append, parseFrom_between hkey,
        parseFrom_step hopen, parseFrom_quoted hform, parseFrom_blank, ih]
      rfl
  | @bare key value text settings hkey hbare _ ih =>
      rw [List.append_assoc, List.cons_append, parseFrom_between hkey, parseFrom_bare hbare, ih]
      rfl

end read

/-! ### The last value -/

lemma lastValue_append (key : List Char) (settings settings' : List Setting) :
    lastValue key (settings ++ settings') = (lastValue key settings').or (lastValue key settings) := by
  induction settings with
  | nil => rw [List.nil_append, lastValue, Option.or_none]
  | cons pair rest ih => rw [List.cons_append, lastValue, ih, lastValue, Option.or_assoc]

/-! ### The terminating NUL -/

lemma cString_of_notMem {cs : List Char} (h : '\x00' ∉ cs) : cString cs = cs := by
  rw [cString, List.takeWhile_eq_self_iff]
  intro c hc
  rw [bne_iff_ne]
  rintro rfl
  exact h hc

end GmsvPg.Library.Conninfo
