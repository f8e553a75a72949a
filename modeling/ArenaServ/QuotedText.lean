import Mathlib.Algebra.GroupWithZero.Nat
import Mathlib.Algebra.Order.Group.Nat
import Mathlib.Data.List.Basic

/-!
# Texts with quoted literals

A text is read as code and as literals between quotes. A quote inside a literal is written twice,
and there may be a character that introduces escapes. Literals whose characters are written so that
each is read as itself are read back as they were, whatever they contain, and the code between them
stays the code that it is.
-/

namespace QuotedText

variable {α : Type*} [DecidableEq α]

structure Dialect (α : Type*) where
  quote : α
  escape : Option α
  /-- What a character stands for behind `escape`. -/
  meaning : α → List α

inductive Piece (α : Type*) where
  | code (c : α)
  | literal (content : List α)
  deriving DecidableEq

/-- Where a reader is; the content of a literal is kept in reverse. -/
inductive Place (α : Type*) where
  | outside
  | inside (content : List α)
  /-- Behind a quote in a literal, which ends it unless another one follows. -/
  | quoted (content : List α)
  | escaped (content : List α)

def scanFrom (d : Dialect α) : Place α → List α → Option (List (Piece α))
  | .outside, [] => some []
  | .inside _, [] => none
  | .quoted content, [] => some [.literal content.reverse]
  | .escaped _, [] => none
  | .outside, c :: cs =>
      if c = d.quote then scanFrom d (.inside []) cs
      else (scanFrom d .outside cs).map (.code c :: ·)
  | .inside content, c :: cs =>
      if c = d.quote then scanFrom d (.quoted content) cs
      else if d.escape = some c then scanFrom d (.escaped content) cs
      else scanFrom d (.inside (c :: content)) cs
  | .quoted content, c :: cs =>
      if c = d.quote then scanFrom d (.inside (c :: content)) cs
      else (scanFrom d .outside cs).map fun pieces =>
        .literal content.reverse :: .code c :: pieces
  | .escaped content, c :: cs => scanFrom d (.inside ((d.meaning c).reverse ++ content)) cs

def scan (d : Dialect α) (text : List α) : Option (List (Piece α)) := scanFrom d .outside text

/-! ## Writing -/

/-- A literal with each character written by `encode`. -/
def quoteLiteral (d : Dialect α) (encode : α → List α) (content : List α) : List α :=
  d.quote :: content.flatMap encode ++ [d.quote]

def print (d : Dialect α) (encode : α → List α) (pieces : List (Piece α)) : List α :=
  pieces.flatMap fun
    | .code c => [c]
    | .literal content => quoteLiteral d encode content

/-- What `encode` writes for a character inside a literal is read as that character. -/
def FaithfulAt (d : Dialect α) (encode : α → List α) (c : α) : Prop :=
  ∀ content rest, scanFrom d (.inside content) (encode c ++ rest) =
    scanFrom d (.inside (c :: content)) rest

def Faithful (d : Dialect α) (encode : α → List α) : Prop := ∀ c, FaithfulAt d encode c

/-- No quote stands in the code, and no literal directly behind another one. -/
def Separated (d : Dialect α) : List (Piece α) → Prop
  | [] => True
  | .code c :: pieces => c ≠ d.quote ∧ Separated d pieces
  | .literal _ :: .literal _ :: _ => False
  | .literal _ :: pieces => Separated d pieces

variable {d : Dialect α} {encode : α → List α}

theorem scanFrom_content {content : List α} (hfaithful : ∀ c ∈ content, FaithfulAt d encode c)
    (rest acc : List α) :
    scanFrom d (.inside acc) (content.flatMap encode ++ rest) =
      scanFrom d (.inside (content.reverse ++ acc)) rest := by
  induction content generalizing acc with
  | nil => rfl
  | cons c content ih =>
      rw [List.flatMap_cons, List.append_assoc, hfaithful c List.mem_cons_self,
        ih fun b hb => hfaithful b (List.mem_cons_of_mem c hb), List.reverse_cons,
        List.append_assoc]
      rfl

theorem scanFrom_quoted (content : List α) {text : List α} (h : text.head? ≠ some d.quote) :
    scanFrom d (.quoted content) text =
      (scanFrom d .outside text).map (.literal content.reverse :: ·) := by
  cases text with
  | nil => rfl
  | cons c cs =>
      have hc : c ≠ d.quote := fun hc => h (congrArg some hc)
      rw [scanFrom, scanFrom, if_neg hc, if_neg hc, Option.map_map]
      rfl

/-- A literal is read back with its content. -/
theorem scan_quoteLiteral {content rest : List α}
    (hfaithful : ∀ c ∈ content, FaithfulAt d encode c) (h : rest.head? ≠ some d.quote) :
    scan d (quoteLiteral d encode content ++ rest) = (scan d rest).map (.literal content :: ·) := by
  rw [scan, quoteLiteral, List.cons_append, List.cons_append, scanFrom, if_pos rfl,
    List.append_assoc, scanFrom_content hfaithful, List.append_nil, List.cons_append,
    List.nil_append, scanFrom, if_pos rfl, scanFrom_quoted _ h, List.reverse_reverse]
  rfl

theorem scan_code {c : α} (hc : c ≠ d.quote) (rest : List α) :
    scan d (c :: rest) = (scan d rest).map (.code c :: ·) := by
  rw [scan, scanFrom, if_neg hc]
  rfl

omit [DecidableEq α] in
theorem print_code (c : α) (pieces : List (Piece α)) :
    print d encode (.code c :: pieces) = c :: print d encode pieces :=
  rfl

omit [DecidableEq α] in
theorem print_literal (content : List α) (pieces : List (Piece α)) :
    print d encode (.literal content :: pieces) =
      quoteLiteral d encode content ++ print d encode pieces :=
  rfl

omit [DecidableEq α] in
/-- Behind a literal the text goes on with code. -/
theorem Separated.head?_print {content : List α} {pieces : List (Piece α)}
    (h : Separated d (.literal content :: pieces)) :
    (print d encode pieces).head? ≠ some d.quote := by
  cases pieces with
  | nil => exact nofun
  | cons piece pieces =>
      cases piece with
      | code c => exact fun hc => h.1 (Option.some.inj hc)
      | literal content => exact h.elim

omit [DecidableEq α] in
theorem Separated.tail {piece : Piece α} {pieces : List (Piece α)}
    (h : Separated d (piece :: pieces)) : Separated d pieces := by
  cases piece with
  | code c => exact h.2
  | literal content =>
      cases pieces with
      | nil => trivial
      | cons piece pieces =>
          cases piece with
          | code c => exact h
          | literal content => exact h.elim

omit [DecidableEq α] in
theorem separated_codes {text : List α} (htext : d.quote ∉ text) {pieces : List (Piece α)}
    (h : Separated d pieces) : Separated d (text.map .code ++ pieces) := by
  induction text with
  | nil => exact h
  | cons c text ih =>
      rw [List.mem_cons, not_or] at htext
      exact ⟨Ne.symm htext.1, ih htext.2⟩

omit [DecidableEq α] in
theorem separated_literal (content : List α) {pieces : List (Piece α)} (h : Separated d pieces)
    (hnext : ∀ next rest, pieces ≠ .literal next :: rest) :
    Separated d (.literal content :: pieces) := by
  cases pieces with
  | nil => trivial
  | cons piece pieces =>
      cases piece with
      | code c => exact h
      | literal next => exact (hnext next pieces rfl).elim

omit [DecidableEq α] in
theorem print_congr {d' : Dialect α} (h : d.quote = d'.quote) (pieces : List (Piece α)) :
    print d encode pieces = print d' encode pieces := by
  refine congrArg (List.flatMap · pieces) (funext fun piece => ?_)
  cases piece with
  | code c => rfl
  | literal content => exact congrArg (fun q => q :: content.flatMap encode ++ [q]) h

/-- What is written is read back. -/
theorem scan_print {pieces : List (Piece α)} (h : Separated d pieces)
    (hfaithful : ∀ content, .literal content ∈ pieces → ∀ c ∈ content, FaithfulAt d encode c) :
    scan d (print d encode pieces) = some pieces := by
  induction pieces with
  | nil => rfl
  | cons piece pieces ih =>
      have ih := ih h.tail fun content hc => hfaithful content (List.mem_cons_of_mem piece hc)
      cases piece with
      | code c =>
          rw [print_code, scan_code h.1, ih]
          rfl
      | literal content =>
          rw [print_literal, scan_quoteLiteral (hfaithful content List.mem_cons_self)
            h.head?_print, ih]
          rfl

/-- Where nothing is escaped, quotes are written twice. -/
def double (q : α) (c : α) : List α := if c = q then [q, q] else [c]

theorem faithful_double (q : α) (meaning : α → List α) :
    Faithful ⟨q, none, meaning⟩ (double q) := by
  intro c content rest
  unfold double
  split_ifs with hc
  · rw [hc, List.cons_append, scanFrom, if_pos rfl, List.cons_append, scanFrom, if_pos rfl,
      List.nil_append]
  · rw [List.cons_append, scanFrom, if_neg hc, if_neg nofun, List.nil_append]

theorem faithfulAt_of_ne (hescape : d.escape = none) {c : α} (hc : c ≠ d.quote) :
    FaithfulAt d (fun c => [c]) c := by
  intro content rest
  rw [List.cons_append, scanFrom, if_neg hc, hescape, if_neg nofun, List.nil_append]

/-! ## Quotes that are written once -/

/-- The length of some pieces with each character written once. -/
def weight (pieces : List (Piece α)) : ℕ :=
  (pieces.map fun
    | .code _ => 1
    | .literal content => content.length + 2).sum

/-- The quotes inside literals. -/
def innerQuotes (d : Dialect α) (pieces : List (Piece α)) : ℕ :=
  (pieces.map fun
    | .code _ => 0
    | .literal content => content.count d.quote).sum

/-- What a reader has kept of a literal, with its first quote. -/
def Place.weight (d : Dialect α) : Place α → ℕ
  | .outside => 0
  | .inside content => content.length + content.count d.quote + 1
  | .quoted content => content.length + content.count d.quote + 2
  | .escaped content => content.length + content.count d.quote + 2

/-- Without escapes, a text is longer than its pieces by the quotes inside its literals. -/
theorem length_of_scanFrom (hescape : d.escape = none) {place : Place α} {text : List α}
    {pieces : List (Piece α)} (hplace : ∀ content, place ≠ .escaped content)
    (h : scanFrom d place text = some pieces) :
    place.weight d + text.length = weight pieces + innerQuotes d pieces := by
  induction text generalizing place pieces with
  | nil =>
      cases place with
      | outside =>
          cases h
          rfl
      | inside content => cases h
      | quoted content =>
          cases h
          simp only [Place.weight, weight, innerQuotes, List.map_cons, List.map_nil,
            List.sum_singleton, List.length_reverse, List.count_reverse, List.length_nil]
          omega
      | escaped content => cases h
  | cons c cs ih =>
      cases place with
      | outside =>
          rw [scanFrom] at h
          split at h
          · have hlen := ih (fun _ hp => by cases hp) h
            simp only [Place.weight, List.length_nil, List.count_nil] at hlen
            simp only [Place.weight, List.length_cons]
            omega
          · obtain ⟨rest, hrest, rfl⟩ := Option.map_eq_some_iff.mp h
            have hlen := ih (fun _ hp => by cases hp) hrest
            simp only [Place.weight, weight, innerQuotes, List.map_cons, List.sum_cons,
              List.length_cons] at hlen ⊢
            omega
      | inside content =>
          rw [scanFrom, hescape, if_neg (show ¬(none = some c) from nofun)] at h
          split at h
          · have hlen := ih (fun _ hp => by cases hp) h
            simp only [Place.weight, List.length_cons] at hlen ⊢
            omega
          · rename_i hc
            have hlen := ih (fun _ hp => by cases hp) h
            simp only [Place.weight, List.length_cons, List.count_cons_of_ne hc] at hlen ⊢
            omega
      | quoted content =>
          rw [scanFrom] at h
          split at h
          · rename_i hc
            have hlen := ih (fun _ hp => by cases hp) h
            rw [hc] at hlen
            simp only [Place.weight, List.length_cons, List.count_cons_self] at hlen ⊢
            omega
          · obtain ⟨rest, hrest, rfl⟩ := Option.map_eq_some_iff.mp h
            have hlen := ih (fun _ hp => by cases hp) hrest
            simp only [Place.weight, weight, innerQuotes, List.map_cons, List.sum_cons,
              List.length_cons, List.length_reverse, List.count_reverse] at hlen ⊢
            omega
      | escaped content => exact absurd rfl (hplace content)

theorem length_of_scan (hescape : d.escape = none) {text : List α} {pieces : List (Piece α)}
    (h : scan d text = some pieces) : text.length = weight pieces + innerQuotes d pieces := by
  have hlen := length_of_scanFrom hescape (fun _ hp => by cases hp) h
  rwa [Place.weight, Nat.zero_add] at hlen

omit [DecidableEq α] in
theorem length_print (pieces : List (Piece α)) :
    (print d (fun c => [c]) pieces).length = weight pieces := by
  induction pieces with
  | nil => rfl
  | cons piece pieces ih =>
      cases piece with
      | code c =>
          rw [print_code, List.length_cons, ih, weight, weight, List.map_cons, List.sum_cons]
          exact Nat.add_comm _ _
      | literal content =>
          rw [print_literal, List.length_append, ih, quoteLiteral, List.flatMap_singleton',
            List.length_append, List.length_cons, List.length_singleton]
          exact congrArg (· + _) (Nat.add_right_comm content.length 1 1)

theorem innerQuotes_eq_zero {pieces : List (Piece α)} :
    innerQuotes d pieces = 0 ↔ ∀ content, .literal content ∈ pieces → d.quote ∉ content := by
  rw [innerQuotes, List.sum_eq_zero_iff_forall_eq_nat, List.forall_mem_map]
  refine ⟨fun h content hcontent => List.count_eq_zero.mp (h _ hcontent), fun h piece hpiece => ?_⟩
  cases piece with
  | code c => rfl
  | literal content => exact List.count_eq_zero.mpr (h content hpiece)

/-- Pieces that are written without any care, and with some characters left out, are read back only
if no character was left out and no quote needed care. -/
theorem scan_filter_print_iff (hescape : d.escape = none) (keep : α → Bool)
    {pieces : List (Piece α)} (h : Separated d pieces) (hcode : ∀ c, .code c ∈ pieces → keep c)
    (hquote : keep d.quote) :
    scan d ((print d (fun c => [c]) pieces).filter keep) = some pieces ↔
      ∀ content, .literal content ∈ pieces → ∀ c ∈ content, c ≠ d.quote ∧ keep c := by
  constructor
  · intro hscan content hcontent c hc
    have hlen := length_of_scan hescape hscan
    have hle := List.length_filter_le keep (print d (fun c => [c]) pieces)
    rw [length_print] at hle
    have hinner := innerQuotes_eq_zero.mp (show innerQuotes d pieces = 0 by omega)
    refine ⟨fun hq => hinner content hcontent (hq ▸ hc), ?_⟩
    have hall := List.length_filter_eq_length_iff.mp
      (show ((print d (fun c => [c]) pieces).filter keep).length =
        (print d (fun c => [c]) pieces).length by rw [length_print]; omega)
    refine hall c (List.mem_flatMap.mpr ⟨_, hcontent, ?_⟩)
    exact List.mem_cons_of_mem _ (List.mem_append_left _ (List.mem_flatMap.mpr
      ⟨c, hc, List.mem_singleton_self c⟩))
  · intro hclean
    have hfilter : (print d (fun c => [c]) pieces).filter keep = print d (fun c => [c]) pieces := by
      refine List.filter_eq_self.mpr fun c hc => ?_
      obtain ⟨piece, hpiece, hc⟩ := List.mem_flatMap.mp hc
      cases piece with
      | code b =>
          rw [List.mem_singleton.mp hc]
          exact hcode b hpiece
      | literal content =>
          rcases List.mem_cons.mp hc with rfl | hc
          · exact hquote
          rcases List.mem_append.mp hc with hc | hc
          · obtain ⟨b, hb, hc⟩ := List.mem_flatMap.mp hc
            rw [List.mem_singleton.mp hc]
            exact (hclean content hpiece b hb).2
          · rw [List.mem_singleton.mp hc]
            exact hquote
    rw [hfilter]
    exact scan_print h fun content hcontent c hc =>
      faithfulAt_of_ne hescape (hclean content hcontent c hc).1

end QuotedText
