import LinkGraph.Json.Reader
import LinkGraph.Proofs.Double.Nearest

/-!
# The numbers of JSON texts

A number that is read from a text is an integer of 64 bits, with or without a
sign, or a finite double: no numeral has another value, and none comes about
while tokens become trees and trees become values.
-/

namespace LinkGraph

/-- An integer of 64 bits, with or without a sign, or a finite double. -/
def JsonNumber.Regular : JsonNumber → Prop
  | integer n => -2 ^ 63 ≤ n ∧ n < 2 ^ 64
  | double x => x.isFinite = true

namespace Word

theorem isSigned_iff (bits : Nat) (n : Int) :
    isSigned bits n = true ↔ -2 ^ (bits - 1) ≤ n ∧ n < 2 ^ (bits - 1) := by
  simp [isSigned, count, Nat.one_shiftLeft]

theorem isNatural_iff
    (bits : Nat) (n : Int) :
    isNatural bits n = true ↔ 0 ≤ n ∧ n < 2 ^ bits := by
  simp [isNatural, count, Nat.one_shiftLeft]

end Word

namespace Double

theorem isFinite_ofMagnitude
    (negative : Bool) {m : Nat} (h : m < infinityBits) :
    (ofMagnitude negative m).isFinite = true := by
  rw [isFinite, magnitude_ofMagnitude negative (h.trans (by decide))]
  exact decide_eq_true h

theorem isFinite_of_ofQuotient? {negative : Bool} {num den : Nat} {x : Double}
    (h : ofQuotient? negative num den = some x) : x.isFinite = true := by
  rw [ofQuotient?] at h
  split at h
  · next hfinite =>
    obtain rfl := Option.some.inj h
    exact isFinite_ofMagnitude negative hfinite
  · cases h

theorem isFinite_of_ofNumeral?
    {x : Decimal.Numeral} {y : Double} (h : ofNumeral? x = some y) :
    y.isFinite = true := by
  rw [ofNumeral?, ofDecimal?] at h
  split at h
  · obtain rfl := Option.some.inj h
    exact isFinite_ofMagnitude x.negative (by decide)
  split at h
  · cases h
  split at h
  · exact isFinite_of_ofQuotient? h
  · exact isFinite_of_ofQuotient? h

end Double

namespace Json

theorem fits_iff (n : Int) :
    (Word.isNatural 64 n = true ∨ Word.isSigned 64 n = true) ↔
      -2 ^ 63 ≤ n ∧ n < 2 ^ 64 := by
  rw [Word.isNatural_iff, Word.isSigned_iff]
  omega

/-- An integer is written with digits alone, fits 64 bits and is not minus
zero. -/
theorem numberOf?_integer_iff {x : Decimal.Numeral} {n : Int} :
    numberOf? x = some (.integer n) ↔ x.isWhole = true ∧ x.toInt = n ∧
      -2 ^ 63 ≤ n ∧ n < 2 ^ 64 ∧ ¬(x.negative = true ∧ n = 0) := by
  rw [numberOf?]
  constructor
  · intro h
    split at h
    · next hinteger =>
      obtain ⟨hwhole, hfits, hzero⟩ := hinteger
      obtain ⟨hlow, hhigh⟩ := (fits_iff _).mp hfits
      obtain rfl := JsonNumber.integer.inj (Option.some.inj h)
      exact ⟨hwhole, rfl, hlow, hhigh, hzero⟩
    · obtain ⟨y, -, hy⟩ := Option.map_eq_some_iff.mp h
      cases hy
  · rintro ⟨hwhole, rfl, hlow, hhigh, hzero⟩
    exact if_pos ⟨hwhole, (fits_iff _).mpr ⟨hlow, hhigh⟩, hzero⟩

theorem numberOf?_regular
    {x : Decimal.Numeral} {n : JsonNumber} (h : numberOf? x = some n) :
    n.Regular := by
  cases n with
  | integer n =>
    obtain ⟨-, -, hlow, hhigh, -⟩ := numberOf?_integer_iff.mp h
    exact ⟨hlow, hhigh⟩
  | double y =>
    rw [numberOf?] at h
    split at h
    · cases h
    · obtain ⟨z, hz, hy⟩ := Option.map_eq_some_iff.mp h
      obtain rfl := JsonNumber.double.inj hy
      exact Double.isFinite_of_ofNumeral? hz

/-! ## Tokens -/

/-- A number among the tokens is regular. -/
def Token.Regular : Token → Prop
  | number (some n) => n.Regular
  | _ => True

theorem wordTokens_regular
    (run : List Char) :
    ∀ token ∈ wordTokens run, token.Regular := by
  have hnamed (token : Token) (h : token.Regular) (rest : List Char) :
      ∀ t ∈ (if rest.isEmpty then [token] else [token, .stray]), t.Regular := by
    intro t ht
    split at ht
    · rw [List.mem_singleton.mp ht]
      exact h
    · rcases List.mem_cons.mp ht with rfl | ht
      · exact h
      · rw [List.mem_singleton.mp ht]
        trivial
  unfold wordTokens
  split
  · exact hnamed .null trivial _
  · exact hnamed (.bool true) trivial _
  · exact hnamed (.bool false) trivial _
  · split
    · next x rest _ =>
      refine hnamed (.number (numberOf? x)) ?_ rest
      cases hn : numberOf? x with
      | none => trivial
      | some n => exact numberOf?_regular hn
    · intro t ht
      rw [List.mem_singleton.mp ht]
      trivial

namespace Lexing

variable {tokens : List Token}

theorem cons_regular
    {token : Token} (htoken : token.Regular) (h : ∀ t ∈ tokens, t.Regular) :
    ∀ t ∈ token :: tokens, t.Regular :=
  List.forall_mem_cons.mpr ⟨htoken, h⟩

theorem plain_regular (c : Char) (h : ∀ t ∈ tokens, t.Regular) :
    ∀ t ∈ (plain c tokens).2, t.Regular := by
  unfold plain
  split
  any_goals exact h
  all_goals exact cons_regular trivial h

theorem endWord_regular (run : List Char) (h : ∀ t ∈ tokens, t.Regular) :
    ∀ t ∈ (endWord run tokens).2, t.Regular := by
  intro t ht
  rcases List.mem_append.mp ht with ht | ht
  · exact wordTokens_regular run.reverse t (List.mem_reverse.mp ht)
  · exact h t ht

theorem step_regular (state : Lexing) (c : Char) (h : ∀ t ∈ tokens, t.Regular) :
    ∀ t ∈ (state.step tokens c).2, t.Regular := by
  cases state with
  | between => exact plain_regular c h
  | inWord run =>
    rw [step]
    split
    · have hword := endWord_regular run h
      split
      · next tokens' hend =>
        rw [hend] at hword
        exact plain_regular c hword
      · next tokens' hend =>
        rw [hend] at hword
        exact hword
    · exact h
  | inString pieces =>
    rw [step]
    split
    · exact cons_regular trivial h
    split
    · exact h
    split
    · exact cons_regular trivial h
    · exact h
  | inEscape pieces =>
    rw [step]
    split
    · exact h
    split
    · exact h
    · exact cons_regular trivial h
  | inUnit pieces owed value =>
    rw [step]
    split
    · dsimp only
      split
      · exact h
      · exact h
    · exact cons_regular trivial h
  | halted => exact h

theorem advance_regular
    (state : Lexing) (c? : Option Char) (h : ∀ t ∈ tokens, t.Regular) :
    ∀ t ∈ (state.advance tokens c?).2, t.Regular := by
  cases c? with
  | some c => exact state.step_regular c h
  | none =>
    cases state with
    | inString pieces => exact h
    | between => exact step_regular _ _ h
    | inEscape pieces => exact step_regular _ _ h
    | inUnit pieces owed value => exact step_regular _ _ h
    | inWord run => exact step_regular _ _ h
    | halted => exact h

theorem finish_regular (state : Lexing) (h : ∀ t ∈ tokens, t.Regular) :
    ∀ t ∈ state.finish tokens, t.Regular := by
  cases state with
  | between => exact h
  | halted => exact h
  | inWord run => exact endWord_regular run h
  | inString pieces => exact cons_regular trivial h
  | inEscape pieces => exact cons_regular trivial h
  | inUnit pieces owed value => exact cons_regular trivial h

end Lexing

theorem scan_regular
    (scalars : List (Option Char)) :
    ∀ t ∈ scan scalars, t.Regular := by
  have hrun (cs : List (Option Char)) (state : Lexing)
      (read : List Token) (h : ∀ t ∈ read, t.Regular) :
      ∀ t ∈ (cs.foldl (fun p c? => Lexing.advance p.1 p.2 c?) (state, read)).2,
        t.Regular := by
    induction cs generalizing state read with
    | nil => exact h
    | cons c? cs ih => exact ih _ _ (state.advance_regular c? h)
  intro t ht
  rw [scan] at ht
  exact Lexing.finish_regular _ (hrun _ _ [] (List.forall_mem_nil _)) t
    (List.mem_reverse.mp ht)

/-! ## Trees -/

/-- All numbers of a tree are regular. -/
inductive Tree.Regular : Tree → Prop
  | null : Regular .null
  | bool (b : Bool) : Regular (.bool b)
  | number (n? : Option JsonNumber) :
    (∀ n, n? = some n → n.Regular) → Regular (.number n?)
  | string (s? : Option String) : Regular (.string s?)
  | array (items : List Tree) :
    (∀ item ∈ items, Regular item) → Regular (.array items)
  | object (members : List (Option String × Tree)) :
    (∀ member ∈ members, Regular member.2) → Regular (.object members)
  | broken : Regular .broken

/-- All numbers that an open container holds so far are regular. -/
def Frame.Regular : Frame → Prop
  | array items => ∀ item ∈ items, item.Regular
  | object members _ => ∀ member ∈ members, member.2.Regular

theorem Frame.Regular.tree
    {frame : Frame} (h : frame.Regular) :
    frame.tree.Regular := by
  cases frame with
  | array items =>
    exact .array _ fun item hitem => h item (List.mem_reverse.mp hitem)
  | object members key =>
    exact .object _ fun member hmember => h member (List.mem_reverse.mp hmember)

theorem Frame.Regular.add
    {frame : Frame} (h : frame.Regular) {value : Tree}
    (hvalue : value.Regular) :
    (frame.add value).Regular := by
  cases frame with
  | array items => exact List.forall_mem_cons.mpr ⟨hvalue, h⟩
  | object members key => exact List.forall_mem_cons.mpr ⟨hvalue, h⟩

/-- What a token leads to has regular numbers only. -/
def Step.Regular : Step → Prop
  | next _ stack => ∀ frame ∈ stack, frame.Regular
  | done root => root.Regular
  | fault => True

variable {stack : List Frame}

theorem sealTree_regular
    {value : Tree} (hvalue : value.Regular)
    (h : ∀ frame ∈ stack, frame.Regular) :
    (sealTree value stack).Regular := by
  induction stack generalizing value with
  | nil => exact hvalue
  | cons frame stack ih =>
    obtain ⟨hframe, hstack⟩ := List.forall_mem_cons.mp h
    exact ih (hframe.add hvalue).tree hstack

theorem deliver_regular
    {value : Tree} (hvalue : value.Regular)
    (h : ∀ frame ∈ stack, frame.Regular) :
    (deliver value stack).Regular := by
  cases stack with
  | nil => exact hvalue
  | cons frame stack =>
    obtain ⟨hframe, hstack⟩ := List.forall_mem_cons.mp h
    exact List.forall_mem_cons.mpr ⟨hframe.add hvalue, hstack⟩

theorem beginValue_regular
    {token : Token} (htoken : token.Regular)
    (h : ∀ frame ∈ stack, frame.Regular) :
    (beginValue stack token).Regular := by
  unfold beginValue
  split
  · exact deliver_regular .null h
  · exact deliver_regular (.bool _) h
  · next n? =>
    apply deliver_regular (.number n? ?_) h
    rintro n rfl
    exact htoken
  · exact deliver_regular (.string _) h
  · exact List.forall_mem_cons.mpr ⟨List.forall_mem_nil _, h⟩
  · exact List.forall_mem_cons.mpr ⟨List.forall_mem_nil _, h⟩
  · trivial

theorem step_regular
    {token : Token} (expected : Expected) (htoken : token.Regular)
    (h : ∀ frame ∈ stack, frame.Regular) :
    (step expected token stack).Regular := by
  unfold step
  split
  any_goals exact beginValue_regular htoken h
  any_goals exact h
  any_goals trivial
  all_goals
    obtain ⟨hframe, hstack⟩ := List.forall_mem_cons.mp h
    first
    | exact deliver_regular hframe.tree hstack
    | exact List.forall_mem_cons.mpr ⟨hframe, hstack⟩

theorem build_regular
    (expected : Expected) {tokens : List Token}
    (htokens : ∀ t ∈ tokens, t.Regular) (h : ∀ frame ∈ stack, frame.Regular) :
    (build expected stack tokens).root.Regular := by
  induction tokens generalizing expected stack with
  | nil => exact sealTree_regular .broken h
  | cons token rest ih =>
    obtain ⟨htoken, hrest⟩ := List.forall_mem_cons.mp htokens
    have hstep := step_regular expected htoken h
    rw [build]
    split
    · next hnext =>
      rw [hnext] at hstep
      exact ih _ hrest hstep
    · next hdone =>
      rw [hdone] at hstep
      exact hstep
    · exact sealTree_regular .broken h

theorem document_regular (scalars : List (Option Char)) :
    (document (scan scalars)).root.Regular :=
  build_regular .value (scan_regular scalars) (List.forall_mem_nil _)

/-! ## Values -/

theorem Reader.any_regular
    {depth : Nat} {tree : Tree} {n : JsonNumber} (h : tree.Regular)
    (hread : any depth tree = .ok (.number n)) :
    n.Regular := by
  unfold any at hread
  split at hread
  any_goals cases hread
  · cases h with
    | number _ hn => exact hn _ rfl
  · next depth items =>
    cases hitems : anyItems depth items <;> rw [hitems] at hread <;> cases hread
  · next depth members =>
    cases hmembers : anyMembers depth members <;> rw [hmembers] at hread <;>
      cases hread

end Json

end LinkGraph
