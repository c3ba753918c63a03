import FluentSql.Log.Entry
import FluentSql.Proofs.Outcome
import FluentSql.Proofs.WrittenJson

/-!
Messages are made of code points. Only one letter of a template puts a number of its own into the
outcome, and it takes no number that is not a code point; all else are the code points of texts.
-/

namespace FluentSql.Log

def AreCodes (codes : List Nat) : Prop := ∀ n ∈ codes, n < 0x110000

namespace AreCodes

theorem ofText {τ : Type} [Textual τ] (s : τ) : AreCodes (Textual.codes s) := Textual.codes_lt s

theorem ofChars (cs : List Char) : AreCodes (cs.map Char.toNat) :=
  List.forall_mem_map.mpr fun c _ =>
    Textual.lt_of_holds (show Textual.holds String c.toNat = true from Textual.holds_char c)

theorem nil : AreCodes [] := List.forall_mem_nil _

theorem cons {n : Nat} {codes : List Nat} (hn : n < 0x110000) (h : AreCodes codes) :
    AreCodes (n :: codes) := List.forall_mem_cons.mpr ⟨hn, h⟩

theorem append {codes more : List Nat} (h : AreCodes codes) (hm : AreCodes more) :
    AreCodes (codes ++ more) := List.forall_mem_append.mpr ⟨h, hm⟩

theorem suffix {codes rest : List Nat} (h : AreCodes codes) (follows : rest <:+ codes) :
    AreCodes rest := fun n hn => h n (follows.subset hn)

/-- Filling up a field adds spaces only. -/
theorem padText (left : Bool) (width : Nat) {codes : List Nat} (h : AreCodes codes) :
    AreCodes (Padded.padText left width codes) := by
  have spaces : AreCodes (List.replicate (width - codes.length) ' '.toNat) := fun n hn =>
    (List.eq_of_mem_replicate hn).symm ▸ by decide
  rw [Padded.padText]
  split
  · exact h.append spaces
  · exact spaces.append h

theorem padNumber (flags : Flags) (width : Nat) (w : Padded.Written) :
    AreCodes (Padded.padNumber flags width w) := by
  simp only [Padded.padNumber]
  split
  · exact ofChars _
  · exact (ofChars _).padText _ _

end AreCodes

theorem areCodes_textCodes {τ : Type} [Textual τ] {v : Value τ} {codes : List Nat}
    (h : Raised.textCodes v = .ok codes) : AreCodes codes := by
  rw [Raised.textCodes] at h
  split at h
  · cases h
    cases v with
    | text s => exact .ofText s
    | _ => exact .ofChars _
  · cases h

theorem areCodes_displayed {τ : Type} [Textual τ] {v : Value τ} {f : String → List Nat}
    (hf : ∀ s, AreCodes (f s)) {codes : List Nat}
    (h : (Raised.displayOf v).map f = .ok codes) : AreCodes codes := by
  rw [Raised.displayOf] at h
  split at h
  · cases h
    exact hf _
  · cases h

theorem areCodes_bind {α : Type} {x : Except Raised α} {f : α → Except Raised (List Nat)}
    {codes : List Nat} (hf : ∀ a, f a = .ok codes → AreCodes codes) (h : x >>= f = .ok codes) :
    AreCodes codes := by
  obtain ⟨a, -, h⟩ := ok_bind_iff.mp h
  exact hf a h

/-- A text is cut before it is put into its field. -/
theorem areCodes_field {shown : Except Raised (List Nat)} {fits : Except Raised Unit} {left : Bool}
    {width : Nat} {cut : List Nat → Nat} {codes : List Nat}
    (hshown : ∀ cs, shown = .ok cs → AreCodes cs) (h : (do
      let cs ← shown
      fits
      .ok (Padded.padText left width (cs.take (cut cs)))) = .ok codes) : AreCodes codes := by
  obtain ⟨cs, known, h⟩ := ok_bind_iff.mp h
  obtain ⟨-, -, h⟩ := ok_bind_iff.mp h
  cases h
  exact .padText _ _ fun n hn => hshown cs known n (List.mem_of_mem_take hn)

namespace Directive

theorem readKey_suffix {depth : Nat} {ns key rest : List Nat}
    (h : readKey depth ns = some (key, rest)) : rest <:+ ns := by
  induction ns generalizing depth key with
  | nil => cases h
  | cons n ns ih =>
      simp only [readKey] at h
      split at h
      · cases h
        exact List.suffix_cons n _
      · obtain ⟨⟨inner, left⟩, hinner, h⟩ := Option.map_eq_some_iff.mp h
        cases h
        exact (ih hinner).trans (List.suffix_cons n ns)

theorem readFlags_suffix (flags : Flags) (ns : List Nat) : (readFlags flags ns).2 <:+ ns := by
  induction ns generalizing flags with
  | nil => exact List.suffix_rfl
  | cons n ns ih =>
      rw [readFlags]
      split
      · exact (ih _).trans (List.suffix_cons n ns)
      · exact List.suffix_rfl

theorem readAmount_suffix {what : String} {limit : Nat} {ns rest : List Nat}
    {amount : Option Amount} (h : readAmount what limit ns = .ok (amount, rest)) : rest <:+ ns := by
  rw [readAmount] at h
  split at h
  · cases h
    exact List.tail_suffix ns
  · split at h
    · cases h
      exact List.suffix_rfl
    · dsimp only at h
      split at h
      · cases h
      · cases h
        exact List.drop_suffix _ ns

theorem readPrecision_suffix {ns rest : List Nat} {amount : Option Amount}
    (h : readPrecision ns = .ok (amount, rest)) : rest <:+ ns := by
  rw [readPrecision] at h
  split at h
  · obtain ⟨⟨read, left⟩, known, h⟩ := ok_bind_iff.mp h
    cases h
    exact (readAmount_suffix known).trans (List.tail_suffix ns)
  · cases h
    exact List.suffix_rfl

theorem dropSize_suffix (ns : List Nat) : dropSize ns <:+ ns := by
  cases ns with
  | nil => exact List.suffix_rfl
  | cons n rest =>
      rw [dropSize]
      split
      · exact List.suffix_cons n rest
      · exact List.suffix_rfl

end Directive

namespace Template

variable {τ : Type} [Textual τ]

theorem oneCode_lt {v : Value τ} {n : Nat} (h : oneCode v = .ok n) : n < 0x110000 := by
  cases v with
  | text s =>
      simp only [oneCode] at h
      split at h
      · next single =>
          cases h
          exact AreCodes.ofText s _ (single ▸ List.mem_cons_self)
      · cases h
  | bool b =>
      cases h
      cases b <;> decide
  | int n =>
      simp only [oneCode] at h
      split at h
      · cases h
        omega
      · cases h
  | _ => cases h

theorem areCodes_write {flags : Flags} {width : Nat} {precision : Option Nat} {letter : Char}
    {v : Value τ} {codes : List Nat} (h : write flags width precision letter v = .ok codes) :
    AreCodes codes := by
  have number {w : Padded.Written}
      (h : .ok (Padded.padNumber flags width w) = (.ok codes : Except Raised _)) :
      AreCodes codes := by
    cases h
    exact .padNumber _ _ w
  simp only [write] at h
  split at h
  · exact areCodes_field (fun _ => areCodes_textCodes) h
  · exact areCodes_field (fun _ => areCodes_displayed fun s => .ofChars _) h
  · exact areCodes_field (fun _ => areCodes_displayed fun s => .ofChars _) h
  · obtain ⟨code, known, h⟩ := ok_bind_iff.mp h
    obtain ⟨-, -, h⟩ := ok_bind_iff.mp h
    cases h
    exact .padText _ _ (.cons (oneCode_lt known) .nil)
  · split at h
    · refine areCodes_bind (fun n h => ?_) h
      split at h
      · cases h
      · split at h
        · exact areCodes_bind (fun _ => number) h
        · cases h
    · exact areCodes_bind (fun _ => areCodes_bind fun _ => number) h

variable [DecidableEq τ]

theorem takeKey_suffix {given : Value τ} {arguments taken : Arguments τ} {ns rest : List Nat}
    (h : takeKey given arguments ns = .ok (taken, rest)) : rest <:+ ns := by
  rw [takeKey] at h
  split at h
  · split at h
    · cases h
    · split at h
      · cases h
      · next key left known =>
          obtain ⟨v, -, h⟩ := ok_bind_iff.mp h
          cases h
          exact (Directive.readKey_suffix known).trans (List.tail_suffix ns)
  · cases h
    exact List.suffix_rfl

/-- A directive gives code points, and leaves what follows it in the template. -/
theorem directive_ok {length : Nat} {given : Value τ} {arguments rest : Arguments τ}
    {ns left codes : List Nat} (h : directive length given arguments ns = .ok (codes, rest, left)) :
    AreCodes codes ∧ left <:+ ns := by
  obtain ⟨⟨arguments, keyed⟩, hkeyed, h⟩ := ok_bind_iff.mp h
  obtain ⟨⟨width, wide⟩, hwide, h⟩ := ok_bind_iff.mp h
  obtain ⟨⟨width, arguments⟩, -, h⟩ := ok_bind_iff.mp h
  obtain ⟨⟨precision, precise⟩, hprecise, h⟩ := ok_bind_iff.mp h
  obtain ⟨⟨precision, arguments⟩, -, h⟩ := ok_bind_iff.mp h
  have follows : Directive.dropSize precise <:+ ns :=
    (Directive.dropSize_suffix precise).trans <| (Directive.readPrecision_suffix hprecise).trans <|
      (Directive.readAmount_suffix hwide).trans <| (Directive.readFlags_suffix {} keyed).trans <|
        takeKey_suffix hkeyed
  dsimp only at h
  split at h
  · cases h
  · next n after letter =>
      obtain ⟨⟨v, arguments⟩, -, h⟩ := ok_bind_iff.mp h
      dsimp only at h
      split at h
      · obtain ⟨written, hwritten, h⟩ := ok_bind_iff.mp h
        cases h
        rw [letter] at follows
        exact ⟨areCodes_write hwritten, (List.suffix_cons n _).trans follows⟩
      · cases h

/-- What is not a directive is passed on from the template. -/
theorem areCodes_fillFrom {length : Nat} {given : Value τ} {fuel : Nat}
    {arguments rest : Arguments τ} {ns codes : List Nat} (template : AreCodes ns)
    (h : fillFrom length given fuel arguments ns = .ok (codes, rest)) : AreCodes codes := by
  fun_induction fillFrom length given fuel arguments ns generalizing codes rest with
  | case1 arguments ns =>
      cases h
      exact .nil
  | case2 fuel arguments =>
      cases h
      exact .nil
  | case3 fuel arguments n ns plain ih =>
      obtain ⟨⟨more, after⟩, hmore, h⟩ := ok_bind_iff.mp h
      cases h
      obtain ⟨first, template⟩ := List.forall_mem_cons.mp template
      exact .cons first (ih template hmore)
  | case4 fuel arguments n ns sign double ih =>
      obtain ⟨⟨more, after⟩, hmore, h⟩ := ok_bind_iff.mp h
      cases h
      obtain ⟨-, template⟩ := List.forall_mem_cons.mp template
      exact .cons (by decide) (ih (AreCodes.suffix template (List.tail_suffix ns)) hmore)
  | case5 fuel arguments n ns sign single ih =>
      obtain ⟨⟨first, after, left⟩, hfirst, h⟩ := ok_bind_iff.mp h
      obtain ⟨⟨more, after⟩, hmore, h⟩ := ok_bind_iff.mp h
      cases h
      obtain ⟨-, template⟩ := List.forall_mem_cons.mp template
      obtain ⟨written, follows⟩ := directive_ok hfirst
      exact .append written (ih _ _ (AreCodes.suffix template follows) hmore)

theorem areCodes_fill {template : List Nat} (given : AreCodes template) {arguments : Value τ}
    {codes : List Nat} (h : fill template arguments = .ok codes) : AreCodes codes := by
  obtain ⟨⟨filled, rest⟩, hfilled, h⟩ := ok_bind_iff.mp h
  dsimp only at h
  split at h
  · cases h
    exact areCodes_fillFrom given hfilled
  · cases h

end Template

theorem Entry.areCodes_message {τ : Type} [Textual τ] [DecidableEq τ] {e : Entry τ}
    {codes : List Nat} (h : e.message = .ok codes) : AreCodes codes := by
  simp only [message] at h
  split at h
  · cases h
  · obtain ⟨v, -, h⟩ := ok_bind_iff.mp h
    obtain ⟨shown, hshown, h⟩ := ok_bind_iff.mp h
    obtain ⟨arguments, -, h⟩ := ok_bind_iff.mp h
    split at h
    · exact Template.areCodes_fill (areCodes_textCodes hshown) h
    · cases h
      exact areCodes_textCodes hshown

end FluentSql.Log
