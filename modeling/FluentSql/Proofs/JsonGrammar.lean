import Mathlib.Tactic.Common
import FluentSql.Json.Reader

/-!
The grammar of JSON texts. The strict one is that of the standard; in the lenient one a text may
also hold the three words for numbers that are not finite. A text is one document at most: no rule
applies in two ways, because blanks and numbers end where the next token begins.
-/

namespace FluentSql.Json

/-- A JSON document. A number is kept as it is written, and a text as its code points. -/
inductive Document where
  | null
  | bool (b : Bool)
  | number (cs : List Char)
  | text (codes : List Nat)
  | array (items : List Document)
  | object (members : List (List Nat × Document))

/-- Code units with the two halves of a character joined; a half on its own stays. -/
def joined : List Nat → List Nat
  | high :: low :: rest =>
    if isHighUnit high && isLowUnit low then
      (0x10000 + 0x400 * (high - 0xd800) + (low - 0xdc00)) :: joined rest
    else high :: joined (low :: rest)
  | units => units

/-- What stands between quotes, with the code units that it denotes. -/
inductive Quotes : List Nat → List Char → Prop
  | done : Quotes [] []
  | plain {c : Char} {units : List Nat} {cs : List Char}
      (unescaped : 32 ≤ c.toNat ∧ c ≠ '"' ∧ c ≠ '\\') (rest : Quotes units cs) :
      Quotes (c.toNat :: units) (c :: cs)
  | short {e c : Char} {units : List Nat} {cs : List Char} (letter : escaped? e = some c)
      (rest : Quotes units cs) : Quotes (c.toNat :: units) ('\\' :: e :: cs)
  | unit {a b c d : Char} {n : Nat} {units : List Nat} {cs : List Char}
      (digits : unit? a b c d = some n) (rest : Quotes units cs) :
      Quotes (n :: units) ('\\' :: 'u' :: a :: b :: c :: d :: cs)

/-- Digits of a whole number: a zero on its own, or digits that start with another one. -/
inductive Whole : List Char → Prop
  | zero : Whole ['0']
  | digits {c : Char} {ds : List Char} (first : c.isDigit = true) (nonzero : c ≠ '0')
      (rest : ds.all Char.isDigit = true) : Whole (c :: ds)

inductive Fraction : List Char → Prop
  | absent : Fraction []
  | digits {ds : List Char} (some : ds ≠ []) (all : ds.all Char.isDigit = true) :
      Fraction ('.' :: ds)

inductive Exponent : List Char → Prop
  | absent : Exponent []
  | digits {e : Char} {sign ds : List Char} (letter : e = 'e' ∨ e = 'E')
      (signed : sign = [] ∨ sign = ['+'] ∨ sign = ['-']) (some : ds ≠ [])
      (all : ds.all Char.isDigit = true) : Exponent (e :: (sign ++ ds))

inductive Numeral : List Char → Prop
  | mk {minus whole fraction exponent : List Char} (signed : minus = [] ∨ minus = ['-'])
      (hw : Whole whole) (hf : Fraction fraction) (he : Exponent exponent) :
      Numeral (minus ++ whole ++ fraction ++ exponent)

/-- The words for numbers that are not finite. -/
def nonFiniteWords : List (List Char) := ["NaN".toList, "Infinity".toList, "-Infinity".toList]

/-- An item of an array, or a member of an object. -/
inductive Element where
  | item (d : Document)
  | member (key : List Nat) (d : Document)

def Element.ofMember (m : List Nat × Document) : Element := .member m.1 m.2

/-- What a stretch of text stands for: an element, or all that is between two brackets. -/
inductive Stretch where
  | one (x : Element)
  | all (xs : List Element)

/-- The texts of documents, of members, and of elements with commas between them. -/
inductive Spells (lenient : Bool) : Stretch → List Char → Prop
  | null : Spells lenient (.one (.item .null)) "null".toList
  | yes : Spells lenient (.one (.item (.bool true))) "true".toList
  | no : Spells lenient (.one (.item (.bool false))) "false".toList
  | number {cs : List Char} (h : Numeral cs ∨ lenient = true ∧ cs ∈ nonFiniteWords) :
      Spells lenient (.one (.item (.number cs))) cs
  | text {units : List Nat} {cs : List Char} (h : Quotes units cs) :
      Spells lenient (.one (.item (.text (joined units)))) ('"' :: cs ++ ['"'])
  | array {items : List Document} {cs : List Char}
      (h : Spells lenient (.all (items.map .item)) cs) :
      Spells lenient (.one (.item (.array items))) ('[' :: cs ++ [']'])
  | object {members : List (List Nat × Document)} {cs : List Char}
      (h : Spells lenient (.all (members.map .ofMember)) cs) :
      Spells lenient (.one (.item (.object members))) ('\x7b' :: cs ++ ['\x7d'])
  | member {units : List Nat} {key before after cs : List Char} {d : Document}
      (name : Quotes units key) (hb : before.all isBlank = true) (ha : after.all isBlank = true)
      (h : Spells lenient (.one (.item d)) cs) :
      Spells lenient (.one (.member (joined units) d))
        ('"' :: key ++ '"' :: (before ++ ':' :: (after ++ cs)))
  | empty {blanks : List Char} (hb : blanks.all isBlank = true) : Spells lenient (.all []) blanks
  | last {x : Element} {before cs after : List Char} (hb : before.all isBlank = true)
      (ha : after.all isBlank = true) (h : Spells lenient (.one x) cs) :
      Spells lenient (.all [x]) (before ++ (cs ++ after))
  | more {x y : Element} {xs : List Element} {before cs after rest : List Char}
      (hb : before.all isBlank = true) (ha : after.all isBlank = true)
      (h : Spells lenient (.one x) cs) (hr : Spells lenient (.all (y :: xs)) rest) :
      Spells lenient (.all (x :: y :: xs)) (before ++ (cs ++ (after ++ ',' :: rest)))

/-- A text denotes a document, with blanks around it. -/
def Denotes (lenient : Bool) (s : String) (d : Document) : Prop :=
  ∃ before cs after, before.all isBlank = true ∧ after.all isBlank = true ∧
    s.toList = before ++ (cs ++ after) ∧ Spells lenient (.one (.item d)) cs

/-- A text that starts with no blank. -/
def NoBlank (r : List Char) : Prop := ∀ c ∈ r.head?, isBlank c = false

theorem blanks_unique {ws ws' r r' : List Char} (h : ws.all isBlank = true)
    (h' : ws'.all isBlank = true) (stop : NoBlank r) (stop' : NoBlank r')
    (same : ws ++ r = ws' ++ r') : ws = ws' ∧ r = r' := by
  have split {ws r : List Char} (h : ws.all isBlank = true) (stop : NoBlank r) :
      (ws ++ r).takeWhile isBlank = ws ∧ (ws ++ r).dropWhile isBlank = r := by
    rw [List.takeWhile_append_of_pos (List.all_eq_true.mp h),
      List.dropWhile_append_of_pos (List.all_eq_true.mp h)]
    cases r with
    | nil => simp
    | cons c r => simp [stop c rfl]
  have first := split h stop
  have second := split h' stop'
  rw [← same] at second
  exact ⟨first.1.symm.trans second.1, first.2.symm.trans second.2⟩

theorem Quotes.unique {units units' : List Nat} {cs cs' r r' : List Char} (h : Quotes units cs)
    (h' : Quotes units' cs') (same : cs ++ '"' :: r = cs' ++ '"' :: r') :
    units = units' ∧ cs = cs' := by
  induction h generalizing units' cs' with
  | done =>
      cases h' with
      | done => exact ⟨rfl, rfl⟩
      | plain unescaped => exact absurd (List.cons.inj same).1.symm unescaped.2.1
      | short | unit => simp at same
  | @plain c units cs unescaped rest ih =>
      cases h' with
      | done => exact absurd (List.cons.inj same).1 unescaped.2.1
      | plain _ rest' =>
          obtain ⟨rfl, later⟩ := List.cons.inj same
          obtain ⟨rfl, rfl⟩ := ih rest' later
          exact ⟨rfl, rfl⟩
      | short | unit => exact absurd (List.cons.inj same).1 unescaped.2.2
  | short letter rest ih =>
      cases h' with
      | done => simp at same
      | plain unescaped => exact absurd (List.cons.inj same).1.symm unescaped.2.2
      | short letter' rest' =>
          obtain ⟨rfl, later⟩ := List.cons.inj (List.cons.inj same).2
          obtain ⟨rfl, rfl⟩ := ih rest' later
          obtain rfl := Option.some.inj (letter.symm.trans letter')
          exact ⟨rfl, rfl⟩
      | unit =>
          obtain ⟨rfl, -⟩ := List.cons.inj (List.cons.inj same).2
          cases letter
  | unit digits rest ih =>
      cases h' with
      | done => simp at same
      | plain unescaped => exact absurd (List.cons.inj same).1.symm unescaped.2.2
      | short letter =>
          obtain ⟨rfl, -⟩ := List.cons.inj (List.cons.inj same).2
          cases letter
      | unit digits' rest' =>
          simp only [List.cons_append, List.cons.injEq, true_and] at same
          obtain ⟨rfl, rfl, rfl, rfl, same⟩ := same
          obtain ⟨rfl, rfl⟩ := ih rest' same
          obtain rfl := Option.some.inj (digits.symm.trans digits')
          exact ⟨rfl, rfl⟩

/-- The characters of numbers and of the words for those that are not finite. -/
def isNumberChar (c : Char) : Bool := c.isAlphanum || c == '+' || c == '-' || c == '.'

theorem isNumberChar_of_isDigit {c : Char} (h : c.isDigit = true) : isNumberChar c = true := by
  simp [isNumberChar, Char.isAlphanum, h]

theorem all_isNumberChar_of_digits {ds : List Char} (h : ds.all Char.isDigit = true) :
    ds.all isNumberChar = true :=
  List.all_eq_true.mpr fun c hc => isNumberChar_of_isDigit (List.all_eq_true.mp h c hc)

theorem Whole.all_isNumberChar {cs : List Char} (h : Whole cs) : cs.all isNumberChar = true := by
  cases h with
  | zero => rfl
  | digits first nonzero rest =>
      rw [List.all_cons, isNumberChar_of_isDigit first, all_isNumberChar_of_digits rest]
      rfl

theorem Fraction.all_isNumberChar {cs : List Char} (h : Fraction cs) :
    cs.all isNumberChar = true := by
  cases h with
  | absent => rfl
  | digits some all =>
      rw [List.all_cons, all_isNumberChar_of_digits all]
      rfl

theorem Exponent.all_isNumberChar {cs : List Char} (h : Exponent cs) :
    cs.all isNumberChar = true := by
  cases h with
  | absent => rfl
  | digits letter signed some all =>
      rw [List.all_cons, List.all_append, all_isNumberChar_of_digits all]
      obtain rfl | rfl := letter <;> obtain rfl | rfl | rfl := signed <;> rfl

theorem Numeral.all_isNumberChar {cs : List Char} (h : Numeral cs) :
    cs.all isNumberChar = true := by
  obtain ⟨signed, hw, hf, he⟩ := h
  rw [List.all_append, List.all_append, List.all_append, hw.all_isNumberChar,
    hf.all_isNumberChar, he.all_isNumberChar]
  obtain rfl | rfl := signed <;> rfl

theorem Whole.head {cs : List Char} (h : Whole cs) :
    ∃ d rest, cs = d :: rest ∧ d.isDigit = true := by
  cases h with
  | zero => exact ⟨_, _, rfl, rfl⟩
  | digits first => exact ⟨_, _, rfl, first⟩

/-- A number starts with a digit or with a minus sign before one. -/
theorem Numeral.head {cs : List Char} (h : Numeral cs) :
    ∃ d rest, d.isDigit = true ∧ (cs = d :: rest ∨ cs = '-' :: d :: rest) := by
  obtain ⟨signed, hw, hf, he⟩ := h
  obtain ⟨d, rest, rfl, digit⟩ := hw.head
  obtain rfl | rfl := signed
  · exact ⟨d, _, digit, .inl rfl⟩
  · exact ⟨d, _, digit, .inr rfl⟩

theorem all_isNumberChar {lenient : Bool} {cs : List Char}
    (h : Numeral cs ∨ lenient = true ∧ cs ∈ nonFiniteWords) : cs.all isNumberChar = true := by
  obtain numeral | ⟨-, word⟩ := h
  · exact numeral.all_isNumberChar
  · simp only [nonFiniteWords, List.mem_cons, List.not_mem_nil, or_false] at word
    obtain rfl | rfl | rfl := word <;> decide

/-- Whether the text of a document may start with a character. -/
def Document.opens : Document → Char → Bool
  | .null, c => c == 'n'
  | .bool b, c => c == if b then 't' else 'f'
  | .number _, c => c.isDigit || c == '-' || c == 'N' || c == 'I'
  | .text _, c => c == '"'
  | .array _, c => c == '['
  | .object _, c => c == '\x7b'

namespace Element

def opens : Element → Char → Bool
  | .item d, c => d.opens c
  | .member _ _, c => c == '"'

def isMember : Element → Bool
  | .item _ => false
  | .member _ _ => true

/-- No element starts with a blank, a comma or a bracket that closes. -/
theorem opens_eq_false (x : Element) {c : Char}
    (h : isBlank c = true ∨ c = ',' ∨ c = ']' ∨ c = '\x7d') : x.opens c = false := by
  have known : c ∈ [' ', '\t', '\n', '\r', ',', ']', '\x7d'] := by
    simp only [isBlank, Bool.or_eq_true, beq_iff_eq] at h
    simp only [List.mem_cons, List.not_mem_nil, or_false]
    tauto
  simp only [List.mem_cons, List.not_mem_nil, or_false] at known
  cases x with
  | member => obtain rfl | rfl | rfl | rfl | rfl | rfl | rfl := known <;> rfl
  | item d =>
      cases d with
      | bool b => cases b <;> obtain rfl | rfl | rfl | rfl | rfl | rfl | rfl := known <;> rfl
      | _ => obtain rfl | rfl | rfl | rfl | rfl | rfl | rfl := known <;> rfl

end Element

variable {lenient : Bool}

theorem Spells.head {x : Element} {cs : List Char} (h : Spells lenient (.one x) cs) :
    ∃ c rest, cs = c :: rest ∧ x.opens c = true := by
  cases h with
  | null | yes | no | text | array | object | member => exact ⟨_, _, rfl, rfl⟩
  | number h =>
      obtain numeral | ⟨-, word⟩ := h
      · obtain ⟨d, rest, digit, rfl | rfl⟩ := numeral.head
        · exact ⟨d, rest, rfl, by simp [Element.opens, Document.opens, digit]⟩
        · exact ⟨_, _, rfl, rfl⟩
      · simp only [nonFiniteWords, List.mem_cons, List.not_mem_nil, or_false] at word
        obtain rfl | rfl | rfl := word <;> exact ⟨_, _, rfl, rfl⟩

/-- No element starts with a blank, whatever follows it. -/
theorem Spells.noBlank {x : Element} {cs : List Char} (h : Spells lenient (.one x) cs)
    (r : List Char) : NoBlank (cs ++ r) := by
  obtain ⟨c, rest, rfl, opens⟩ := h.head
  intro d hd
  obtain rfl : c = d := Option.some.inj hd
  cases blank : isBlank c with
  | false => rfl
  | true => exact absurd opens (Bool.eq_false_iff.mp (x.opens_eq_false (.inl blank)))

/-- What may follow a stretch of text: a blank, a comma or a closing bracket after an element, and
the bracket after all elements. -/
def Stretch.Stops : Stretch → List Char → Prop
  | .one _, r => ∀ c ∈ r.head?, isBlank c = true ∨ c = ',' ∨ c = ']' ∨ c = '\x7d'
  | .all _, r => ∃ c ∈ r.head?, c = ']' ∨ c = '\x7d'

/-- Stretches of one kind: two items, two members, or elements of which all are items or all are
members. -/
def Stretch.Alike : Stretch → Stretch → Prop
  | .one x, .one y => x.isMember = y.isMember
  | .all xs, .all ys => ∃ m, (∀ x ∈ xs, x.isMember = m) ∧ ∀ y ∈ ys, y.isMember = m
  | _, _ => False

theorem numbers_unique {cs cs' r r' : List Char} {d d' : Document}
    (h : cs.all isNumberChar = true) (h' : cs'.all isNumberChar = true)
    (stop : Stretch.Stops (.one (.item d)) r) (stop' : Stretch.Stops (.one (.item d')) r')
    (same : cs ++ r = cs' ++ r') : cs = cs' := by
  have split {cs r : List Char} {d : Document} (h : cs.all isNumberChar = true)
      (stop : Stretch.Stops (.one (.item d)) r) : (cs ++ r).takeWhile isNumberChar = cs := by
    rw [List.takeWhile_append_of_pos (List.all_eq_true.mp h)]
    cases r with
    | nil => simp
    | cons c r =>
        have ends : isNumberChar c = false := by
          have known := stop c rfl
          simp only [isBlank, Bool.or_eq_true, beq_iff_eq] at known
          obtain ((((rfl | rfl) | rfl) | rfl) | rfl | rfl | rfl) := known <;> rfl
        simp [ends]
  rw [← split h stop, same, split h' stop']

/-- A character that tells which kind of document starts with a character. -/
def kindMark (c : Char) : Char := if c ∈ ['n', 't', 'f', '"', '[', '\x7b'] then c else '0'

def Document.mark : Document → Char
  | .null => 'n'
  | .bool b => if b then 't' else 'f'
  | .number _ => '0'
  | .text _ => '"'
  | .array _ => '['
  | .object _ => '\x7b'

theorem Document.kindMark_of_opens {d : Document} {c : Char} (h : d.opens c = true) :
    kindMark c = d.mark := by
  cases d with
  | bool b =>
      obtain rfl := beq_iff_eq.mp h
      cases b <;> rfl
  | number cs =>
      refine if_neg fun mem => ?_
      simp only [List.mem_cons, List.not_mem_nil, or_false] at mem
      obtain rfl | rfl | rfl | rfl | rfl | rfl := mem <;> cases h
  | _ =>
      obtain rfl := beq_iff_eq.mp h
      rfl

/-- Documents whose texts start in one place are of one kind. -/
theorem Spells.mark_eq {d d' : Document} {cs cs' r r' : List Char}
    (h : Spells lenient (.one (.item d)) cs) (h' : Spells lenient (.one (.item d')) cs')
    (same : cs ++ r = cs' ++ r') : d.mark = d'.mark := by
  obtain ⟨c, rest, rfl, opens⟩ := h.head
  obtain ⟨c', rest', rfl, opens'⟩ := h'.head
  obtain ⟨rfl, -⟩ := List.cons.inj same
  exact (Document.kindMark_of_opens opens).symm.trans (Document.kindMark_of_opens opens')

/-- No other stretch of this kind has a text in this place. -/
def Only (lenient : Bool) (p : Stretch) (cs : List Char) : Prop :=
  ∀ ⦃p' : Stretch⦄ ⦃cs' r r' : List Char⦄, Spells lenient p' cs' → p.Alike p' →
    cs ++ r = cs' ++ r' → p.Stops r → p'.Stops r' → p = p' ∧ cs = cs'

namespace Only

/-- For a document only documents of its kind have to be looked at. -/
theorem of_item {d : Document} {cs : List Char} (h : Spells lenient (.one (.item d)) cs)
    (others : ∀ ⦃d' : Document⦄ ⦃cs' r r' : List Char⦄, Spells lenient (.one (.item d')) cs' →
      d.mark = d'.mark → cs ++ r = cs' ++ r' → Stretch.Stops (.one (.item d)) r →
      Stretch.Stops (.one (.item d')) r' → d = d' ∧ cs = cs') :
    Only lenient (.one (.item d)) cs := by
  intro p' cs' r r' h' alike same stop stop'
  match p', alike with
  | .one (.item d'), _ =>
      obtain ⟨rfl, rfl⟩ := others h' (h.mark_eq h' same) same stop stop'
      exact ⟨rfl, rfl⟩

theorem null : Only lenient (.one (.item .null)) "null".toList :=
  of_item .null fun d' cs' r r' h' mark same _ _ => by
    cases h' with
    | null => exact ⟨rfl, rfl⟩
    | _ => cases mark

theorem yes : Only lenient (.one (.item (.bool true))) "true".toList :=
  of_item .yes fun d' cs' r r' h' mark same _ _ => by
    cases h' with
    | yes => exact ⟨rfl, rfl⟩
    | _ => cases mark

theorem no : Only lenient (.one (.item (.bool false))) "false".toList :=
  of_item .no fun d' cs' r r' h' mark same _ _ => by
    cases h' with
    | no => exact ⟨rfl, rfl⟩
    | _ => cases mark

theorem number {cs : List Char} (h : Numeral cs ∨ lenient = true ∧ cs ∈ nonFiniteWords) :
    Only lenient (.one (.item (.number cs))) cs :=
  of_item (.number h) fun d' cs' r r' h' mark same stop stop' => by
    cases h' with
    | number h' =>
        obtain rfl := numbers_unique (all_isNumberChar h) (all_isNumberChar h') stop stop' same
        exact ⟨rfl, rfl⟩
    | _ => cases mark

theorem text {units : List Nat} {cs : List Char} (h : Quotes units cs) :
    Only lenient (.one (.item (.text (joined units)))) ('"' :: cs ++ ['"']) :=
  of_item (.text h) fun d' cs' r r' h' mark same _ _ => by
    cases h' with
    | text h' =>
        obtain ⟨rfl, rfl⟩ := h.unique h' (by simpa using same)
        exact ⟨rfl, rfl⟩
    | _ => cases mark

theorem array {items : List Document} {cs : List Char}
    (h : Spells lenient (.all (items.map .item)) cs)
    (only : Only lenient (.all (items.map .item)) cs) :
    Only lenient (.one (.item (.array items))) ('[' :: cs ++ [']']) :=
  of_item (.array h) fun d' cs' r r' h' mark same _ _ => by
    cases h' with
    | @array items' cs' h' =>
        obtain ⟨alike, rfl⟩ := only h' ⟨false, List.forall_mem_map.mpr fun _ _ => rfl,
          List.forall_mem_map.mpr fun _ _ => rfl⟩
          (show cs ++ ']' :: r = cs' ++ ']' :: r' by simpa using same)
          ⟨_, rfl, .inl rfl⟩ ⟨_, rfl, .inl rfl⟩
        rw [(List.map_inj_right fun _ _ => Element.item.inj).mp (Stretch.all.inj alike)]
        exact ⟨rfl, rfl⟩
    | _ => cases mark

theorem object {members : List (List Nat × Document)} {cs : List Char}
    (h : Spells lenient (.all (members.map .ofMember)) cs)
    (only : Only lenient (.all (members.map .ofMember)) cs) :
    Only lenient (.one (.item (.object members))) ('\x7b' :: cs ++ ['\x7d']) :=
  of_item (.object h) fun d' cs' r r' h' mark same _ _ => by
    cases h' with
    | @object members' cs' h' =>
        obtain ⟨alike, rfl⟩ := only h' ⟨true, List.forall_mem_map.mpr fun _ _ => rfl,
          List.forall_mem_map.mpr fun _ _ => rfl⟩
          (show cs ++ '\x7d' :: r = cs' ++ '\x7d' :: r' by simpa using same)
          ⟨_, rfl, .inr rfl⟩ ⟨_, rfl, .inr rfl⟩
        rw [(List.map_inj_right fun _ _ member => Prod.ext_iff.mpr (Element.member.inj member)).mp
          (Stretch.all.inj alike)]
        exact ⟨rfl, rfl⟩
    | _ => cases mark

theorem member {units : List Nat} {key before after cs : List Char} {d : Document}
    (name : Quotes units key) (hb : before.all isBlank = true) (ha : after.all isBlank = true)
    (h : Spells lenient (.one (.item d)) cs) (only : Only lenient (.one (.item d)) cs) :
    Only lenient (.one (.member (joined units) d))
      ('"' :: key ++ '"' :: (before ++ ':' :: (after ++ cs))) := by
  intro p' cs' r r' h' alike same stop stop'
  match p', alike with
  | .one (.member key' d'), _ =>
      cases h' with
      | member name' hb' ha' h' =>
          simp only [List.cons_append, List.append_assoc, List.cons.injEq, true_and] at same
          obtain ⟨rfl, rfl⟩ := name.unique name' same
          have colon (t : List Char) : NoBlank (':' :: t) := by simp [NoBlank, isBlank]
          -- Behind the name the blanks end at the colon, then at the value.
          obtain ⟨rfl, behind⟩ := blanks_unique hb hb' (colon _) (colon _)
            (List.cons.inj (List.append_cancel_left same)).2
          obtain ⟨rfl, value⟩ := blanks_unique ha ha' (h.noBlank r) (h'.noBlank r')
            (List.cons.inj behind).2
          obtain ⟨alike, rfl⟩ := only h' rfl value stop stop'
          cases alike
          exact ⟨rfl, rfl⟩

/-- What follows an element among others, behind its blanks. -/
def Ends (t : List Char) : Prop := ∃ c ∈ t.head?, c = ',' ∨ c = ']' ∨ c = '\x7d'

theorem Ends.noBlank {t : List Char} (h : Ends t) : NoBlank t := by
  obtain ⟨c, hc, ends⟩ := h
  intro d hd
  obtain rfl := Option.some.inj (hc.symm.trans hd)
  obtain rfl | rfl | rfl := ends <;> rfl

/-- After an element comes a blank, or what ends it. -/
theorem Ends.stops {t : List Char} (h : Ends t) {blanks : List Char}
    (hb : blanks.all isBlank = true) (x : Element) : Stretch.Stops (.one x) (blanks ++ t) := by
  intro c hc
  cases blanks with
  | nil =>
      obtain ⟨d, hd, ends⟩ := h
      obtain rfl := Option.some.inj (hc.symm.trans hd)
      exact .inr ends
  | cons b blanks =>
      obtain rfl := Option.some.inj hc
      exact .inl (List.all_eq_true.mp hb _ List.mem_cons_self)

/-- An element at the start of a text, with the blanks around it and what follows. -/
theorem first {x y : Element} {before cs after t before' cs' after' t' : List Char}
    (h : Spells lenient (.one x) cs) (only : Only lenient (.one x) cs)
    (h' : Spells lenient (.one y) cs') (alike : x.isMember = y.isMember)
    (hb : before.all isBlank = true) (ha : after.all isBlank = true)
    (hb' : before'.all isBlank = true) (ha' : after'.all isBlank = true) (ends : Ends t)
    (ends' : Ends t') (same : before ++ (cs ++ (after ++ t)) = before' ++ (cs' ++ (after' ++ t'))) :
    x = y ∧ before = before' ∧ cs = cs' ∧ after = after' ∧ t = t' := by
  obtain ⟨rfl, element⟩ := blanks_unique hb hb' (h.noBlank _) (h'.noBlank _) same
  obtain ⟨alike, rfl⟩ := only h' alike element (ends.stops ha x) (ends'.stops ha' y)
  cases alike
  obtain ⟨rfl, rfl⟩ := blanks_unique ha ha' ends.noBlank ends'.noBlank
    (List.append_cancel_left element)
  exact ⟨rfl, rfl, rfl, rfl, rfl⟩

theorem Ends.of_stops {xs : List Element} {r : List Char} (h : (Stretch.all xs).Stops r) :
    Ends r := by
  obtain ⟨c, hc, closing⟩ := h
  exact ⟨c, hc, .inr closing⟩

/-- Where no element stands, none can be found. -/
theorem not_element {x : Element} {blanks before cs r t : List Char}
    (hb : blanks.all isBlank = true) (hb' : before.all isBlank = true)
    (h : Spells lenient (.one x) cs) (stop : (Stretch.all []).Stops r)
    (same : blanks ++ r = before ++ (cs ++ t)) : False := by
  obtain ⟨-, rfl⟩ := blanks_unique hb hb' (Ends.of_stops stop).noBlank (h.noBlank t) same
  obtain ⟨c, hc, closing⟩ := stop
  obtain ⟨d, rest, rfl, opens⟩ := h.head
  obtain rfl : d = c := Option.some.inj hc
  exact absurd opens (Bool.eq_false_iff.mp (x.opens_eq_false (.inr (.inr closing))))

/-- Between brackets only elements of the same kind have to be looked at. -/
theorem of_all {xs : List Element} {cs : List Char}
    (others : ∀ ⦃ys : List Element⦄ ⦃cs' r r' : List Char⦄, Spells lenient (.all ys) cs' →
      (∃ m, (∀ x ∈ xs, x.isMember = m) ∧ ∀ y ∈ ys, y.isMember = m) → cs ++ r = cs' ++ r' →
      (Stretch.all []).Stops r → (Stretch.all []).Stops r' → xs = ys ∧ cs = cs') :
    Only lenient (.all xs) cs := by
  intro p' cs' r r' h' alike same stop stop'
  match p', alike with
  | .all ys, alike =>
      obtain ⟨rfl, rfl⟩ := others h' alike same stop stop'
      exact ⟨rfl, rfl⟩

theorem empty {blanks : List Char} (hb : blanks.all isBlank = true) :
    Only lenient (.all []) blanks :=
  of_all fun ys cs' r r' h' _ same stop stop' => by
    cases h' with
    | empty hb' =>
        obtain ⟨rfl, -⟩ := blanks_unique hb hb' (Ends.of_stops stop).noBlank
          (Ends.of_stops stop').noBlank same
        exact ⟨rfl, rfl⟩
    | last hb' _ h' | more hb' _ h' =>
        exact (not_element hb hb' h' stop (by simpa using same)).elim

/-- A comma ends no elements. -/
theorem not_comma {r t : List Char} (stop : (Stretch.all []).Stops r) (same : r = ',' :: t) :
    False := by
  obtain ⟨c, hc, closing⟩ := stop
  rw [same] at hc
  obtain rfl := Option.some.inj hc
  obtain closing | closing := closing <;> cases closing

theorem last {x : Element} {before cs after : List Char} (hb : before.all isBlank = true)
    (ha : after.all isBlank = true) (h : Spells lenient (.one x) cs)
    (only : Only lenient (.one x) cs) : Only lenient (.all [x]) (before ++ (cs ++ after)) :=
  of_all fun ys cs' r r' h' ⟨m, kind, kind'⟩ same stop stop' => by
    simp only [List.append_assoc] at same
    cases h' with
    | empty hb' => exact (not_element hb' hb h stop' same.symm).elim
    | last hb' ha' h' =>
        simp only [List.append_assoc] at same
        obtain ⟨rfl, rfl, rfl, rfl, -⟩ := first h only h'
          ((kind _ List.mem_cons_self).trans (kind' _ List.mem_cons_self).symm) hb ha hb' ha'
          (Ends.of_stops stop) (Ends.of_stops stop') same
        exact ⟨rfl, rfl⟩
    | more hb' ha' h' hr =>
        simp only [List.append_assoc] at same
        obtain ⟨-, -, -, -, rest⟩ := first h only h'
          ((kind _ List.mem_cons_self).trans (kind' _ List.mem_cons_self).symm) hb ha hb' ha'
          (Ends.of_stops stop) ⟨',', rfl, .inl rfl⟩ same
        exact (not_comma stop rest).elim

theorem more {x y : Element} {xs : List Element} {before cs after rest : List Char}
    (hb : before.all isBlank = true) (ha : after.all isBlank = true)
    (h : Spells lenient (.one x) cs) (only : Only lenient (.one x) cs)
    (others : Only lenient (.all (y :: xs)) rest) :
    Only lenient (.all (x :: y :: xs)) (before ++ (cs ++ (after ++ ',' :: rest))) :=
  of_all fun ys cs' r r' h' ⟨m, kind, kind'⟩ same stop stop' => by
    simp only [List.append_assoc] at same
    cases h' with
    | empty hb' => exact (not_element hb' hb h stop' same.symm).elim
    | last hb' ha' h' =>
        simp only [List.append_assoc] at same
        obtain ⟨-, -, -, -, rest⟩ := first h only h'
          ((kind _ List.mem_cons_self).trans (kind' _ List.mem_cons_self).symm) hb ha hb' ha'
          ⟨',', rfl, .inl rfl⟩ (Ends.of_stops stop') same
        exact (not_comma stop' rest.symm).elim
    | more hb' ha' h' hr =>
        simp only [List.append_assoc] at same
        obtain ⟨rfl, rfl, rfl, rfl, rest⟩ := first h only h'
          ((kind _ List.mem_cons_self).trans (kind' _ List.mem_cons_self).symm) hb ha hb' ha'
          ⟨',', rfl, .inl rfl⟩ ⟨',', rfl, .inl rfl⟩ same
        obtain ⟨alike, rfl⟩ := others hr ⟨m, fun z hz => kind z (List.mem_cons_of_mem _ hz),
          fun z hz => kind' z (List.mem_cons_of_mem _ hz)⟩ (List.cons.inj rest).2 stop stop'
        cases alike
        exact ⟨rfl, rfl⟩

end Only

theorem Spells.only {p : Stretch} {cs : List Char} (h : Spells lenient p cs) :
    Only lenient p cs := by
  induction h with
  | null => exact .null
  | yes => exact .yes
  | no => exact .no
  | number h => exact .number h
  | text h => exact .text h
  | array h ih => exact .array h ih
  | object h ih => exact .object h ih
  | member name hb ha h ih => exact .member name hb ha h ih
  | empty hb => exact .empty hb
  | last hb ha h ih => exact .last hb ha h ih
  | more hb ha h _ ih ihr => exact .more hb ha h ih ihr

/-- A text denotes one document at most. -/
theorem Denotes.unique {s : String} {d d' : Document} (h : Denotes lenient s d)
    (h' : Denotes lenient s d') : d = d' := by
  obtain ⟨before, cs, after, hb, ha, hs, spelled⟩ := h
  obtain ⟨before', cs', after', hb', ha', hs', spelled'⟩ := h'
  have blank {ws : List Char} (hw : ws.all isBlank = true) (d : Document) :
      Stretch.Stops (.one (.item d)) ws := fun c hc =>
    .inl (List.all_eq_true.mp hw c (List.mem_of_mem_head? hc))
  obtain ⟨-, same⟩ := blanks_unique hb hb' (spelled.noBlank after) (spelled'.noBlank after')
    (hs.symm.trans hs')
  obtain ⟨alike, -⟩ := spelled.only spelled' rfl same (blank ha d) (blank ha' d')
  exact Element.item.inj (Stretch.one.inj alike)

/-- What the strict grammar takes is taken leniently too. -/
theorem Spells.to_lenient {p : Stretch} {cs : List Char} (h : Spells false p cs) :
    Spells lenient p cs := by
  induction h with
  | null => exact .null
  | yes => exact .yes
  | no => exact .no
  | number h =>
      obtain numeral | ⟨impossible, -⟩ := h
      · exact .number (.inl numeral)
      · cases impossible
  | text h => exact .text h
  | array _ ih => exact .array ih
  | object _ ih => exact .object ih
  | member name hb ha _ ih => exact .member name hb ha ih
  | empty hb => exact .empty hb
  | last hb ha _ ih => exact .last hb ha ih
  | more hb ha _ _ ih ihr => exact .more hb ha ih ihr

theorem Denotes.to_lenient {s : String} {d : Document} (h : Denotes false s d) :
    Denotes lenient s d := by
  obtain ⟨before, cs, after, hb, ha, hs, spelled⟩ := h
  exact ⟨before, cs, after, hb, ha, hs, spelled.to_lenient⟩

end FluentSql.Json
