import ModularLexer.Proofs.Runs.Cursor
import ModularLexer.Proofs.Segmentation.Streaming

/-!
Lexers in the mode of characters split every input into its characters, whatever handlers they have:
a token for each one, placed where the characters before it stop.
-/
namespace ModularLexer

/-- The place after a text: its bytes, its lines, and the characters of the last one. -/
def Text.place (t : Text) : Position where
  index := .ofNat t.byteLength
  line := .ofNat (1 + t.count '\n')
  column := .ofNat (1 + t.lastLine.length)

/-- The words of the place say the numbers, if the text fits into memory. -/
structure Text.Placed (t : Text) : Prop where
  index : t.place.index.toNat = t.byteLength
  line : t.place.line.toNat = 1 + t.count '\n'
  column : t.place.column.toNat = 1 + t.lastLine.length

theorem Text.Fits.placed {t : Text} (h : t.Fits) : t.Placed :=
  ⟨h.toNat_ofNat (Nat.le_succ _), h.toNat_line, h.toNat_column⟩

/-- Going over a text from the start comes to the place after it. -/
theorem Text.stop_eq_place (t : Text) : t.stop = t.place := by
  simp [stop, Position.advance, place, Position.start, Position.columnAfter_one, UInt64.ofNat_add]

namespace Segmentation

/-- The tokens of an input that is split into its characters: there is one for each, with the places
after what is before the character and after the character itself. So where a token stops the next
one starts, from the start to the place after the input, and together they are the input; if it fits
into memory, the places are exact and the locations cut the characters out of it. -/
structure Splits (source : Option String) (input : Text) (ts : List Token) : Prop where
  length : ts.length = input.length
  token (front : Text) (c : Char) (back : Text) : input = front ++ c :: back →
    ts[front.length]? =
      some ⟨"char", some [c], none, some ⟨front.place, (front ++ [c]).place, source⟩⟩
  places : ts.filterMap (·.location.map (·.start)) ++ [input.place] =
    Position.start :: ts.filterMap (·.location.map (·.stop))
  placed : input.Fits → ∀ front, front <+: input → Text.Placed front
  slices : input.Fits → ∀ t ∈ ts, ∃ l, t.location = some l ∧
    input.slice? l.start.index.toNat l.stop.index.toNat = t.value
  values : (ts.filterMap (·.value)).flatten = input

section Reference

variable (source : Option String)

theorem length_characters (before rest : Text) :
    (characters source before rest).tokens.length = rest.length := by
  induction rest generalizing before with
  | nil => rfl
  | cons c rest ih => exact congrArg (· + 1) (ih (before ++ [c]))

theorem getElem?_characters (before front : Text) (c : Char) (back : Text) :
    (characters source before (front ++ c :: back)).tokens[front.length]? =
      some (characterAt source (before ++ front) c) := by
  induction front generalizing before with
  | nil =>
    rw [List.append_nil]
    rfl
  | cons d front ih =>
    have hafter := ih (before ++ [d])
    rw [List.append_assoc, List.singleton_append] at hafter
    exact hafter

theorem places_characters (before rest : Text) :
    (characters source before rest).tokens.filterMap (·.location.map (·.start)) ++
        [(before ++ rest).stop] =
      before.stop ::
        (characters source before rest).tokens.filterMap (·.location.map (·.stop)) := by
  induction rest generalizing before with
  | nil =>
    rw [List.append_nil]
    rfl
  | cons c rest ih =>
    have hafter := ih (before ++ [c])
    rw [List.append_assoc, List.singleton_append] at hafter
    exact congrArg (before.stop :: ·) hafter

theorem slices_characters {before rest input : Text} (hfits : input.Fits)
    (hinput : before ++ rest = input) :
    ∀ t ∈ (characters source before rest).tokens, ∃ l, t.location = some l ∧
      input.slice? l.start.index.toNat l.stop.index.toNat = t.value := by
  induction rest generalizing before with
  | nil =>
    intro t ht
    cases ht
  | cons c rest ih =>
    have hafter : (before ++ [c]) ++ rest = input := by
      rw [List.append_assoc, List.singleton_append, hinput]
    intro t ht
    rcases List.mem_cons.1 ht with rfl | ht
    · refine ⟨_, rfl, ?_⟩
      rw [(hfits.of_prefix ⟨_, hinput⟩).index_stop, (hfits.of_prefix ⟨_, hafter⟩).index_stop,
        ← hinput]
      exact Text.slice?_middle before [c] rest
    · exact ih hafter t ht

theorem values_characters (before rest : Text) :
    ((characters source before rest).tokens.filterMap (·.value)).flatten = rest := by
  induction rest generalizing before with
  | nil => rfl
  | cons c rest ih => exact congrArg (c :: ·) (ih (before ++ [c]))

theorem splits_characters (input : Text) :
    Splits source input (characters source [] input).tokens where
  length := length_characters source [] input
  token front c back h := by
    subst h
    rw [getElem?_characters, List.nil_append, characterAt, Text.stop_eq_place, Text.stop_eq_place]
    rfl
  places := by
    rw [← Text.stop_eq_place]
    exact places_characters source [] input
  placed hfits _ hfront := (hfits.of_prefix hfront).placed
  slices hfits := slices_characters source hfits (List.nil_append input)
  values := values_characters source [] input

end Reference

section Run

variable {m n : Machine} {source : Option String} {before rest : Text} {listed : List Token}
  {c : Char}

/-- A machine in the mode of characters behind a text, with a list and no tokens that wait. -/
structure Splitting (source : Option String) (before rest : Text) (listed : List Token)
    (m : Machine) : Prop where
  mode : m.lexer.options.mode = .character
  origin : m.lexer.options.source = source
  rest : m.lexer.pass.rest = rest
  position : m.lexer.pass.position = before.stop
  tokens : m.lexer.pass.tokens.toList = listed
  queue : m.queue = []
  stack : m.lexer.pass.stack = []

/-- The next token is that of the next character, whatever handlers would do. -/
theorem Splitting.next (hm : Splitting source before (c :: rest) listed m) :
    ∃ n, (∀ call, LexM.next call m = some (.ok (some (characterAt source before c)), n)) ∧
      Splitting source (before ++ [c]) rest listed n := by
  obtain ⟨n, htoken, hn⟩ := LexM.characterToken_apply hm.rest
  have hstop : (m.lexer.pass.past [c] rest).position = (before ++ [c]).stop := by
    rw [Text.stop_append, ← hm.position]
    rfl
  rw [hm.position, hstop, hm.origin] at htoken
  refine ⟨n, ?_, ?_⟩
  · intro call
    apply LexM.next_of_derive hm.queue
    rw [LexM.derive_of_character hm.rest hm.mode]
    exact LexM.bind_of_ok htoken
  · obtain ⟨lexer, journal⟩ := n
    obtain rfl : lexer = { m.lexer with pass := m.lexer.pass.past [c] rest } := hn
    exact { hm with rest := rfl, position := hstop }

/-- Behind the input there is no token. -/
theorem Splitting.next_nil (hm : Splitting source before [] listed m)
    (call : Handler → LexM (Option Token)) : LexM.next call m = some (.ok none, m) :=
  LexM.next_of_derive hm.queue (LexM.derive_of_rest_nil hm.rest)

theorem Splitting.push (hm : Splitting source before rest listed m) (t : Token) :
    ∃ n, LexM.push t m = some (.ok (), n) ∧
      Splitting source before rest (listed ++ [t]) n := by
  refine ⟨_, LexM.push_apply t m, ?_⟩
  rw [Machine.withPass, Machine.lexer_told]
  have htokens : (m.lexer.pass.push t).tokens.toList = listed ++ [t] := by
    rw [← hm.tokens]
    exact Array.toList_push
  exact { hm with tokens := htokens }

/-- By induction on what is left: each turn of the loop lists the token of one character. -/
theorem Splitting.pushAll {bound : Nat} (hm : Splitting source before rest listed m)
    (hbound : rest.length < bound) :
    ∃ n, (∀ call, LexM.pushAll call bound m = some (.ok (), n)) ∧
      Splitting source (before ++ rest) []
        (listed ++ (characters source before rest).tokens) n := by
  induction rest generalizing before listed m bound with
  | nil =>
    obtain ⟨bound, rfl⟩ := Nat.exists_eq_succ_of_ne_zero (Nat.ne_of_gt hbound)
    refine ⟨m, ?_, ?_⟩
    · intro call
      rw [LexM.pushAll, LexM.bind_of_ok (hm.next_nil call)]
      rfl
    · rw [List.append_nil]
      exact { hm with tokens := hm.tokens.trans (List.append_nil listed).symm }
  | cons c rest ih =>
    obtain ⟨bound, rfl⟩ := Nat.exists_eq_succ_of_ne_zero (Nat.ne_of_gt (Nat.zero_lt_of_lt hbound))
    obtain ⟨k, hnext, hk⟩ := hm.next
    obtain ⟨l, hpush, hl⟩ := hk.push (characterAt source before c)
    obtain ⟨n, hall, hn⟩ := ih hl (Nat.lt_of_succ_lt_succ hbound)
    refine ⟨n, ?_, ?_⟩
    · intro call
      rw [LexM.pushAll, LexM.bind_of_ok (hnext call)]
      dsimp only
      rw [LexM.bind_of_ok hpush, hall call]
    · rw [List.append_assoc, List.append_assoc] at hn
      exact hn

/-- In the mode of characters every input is tokenized, and its tokens are its characters. It does
not matter what calling a handler would do, since none is called. -/
theorem tokenize_characters {bound : Nat} {input : Text}
    (hmode : m.lexer.options.mode = .character) (hbound : input.length < bound) :
    ∃ ts n, (∀ call : Handler → LexM (Option Token),
        LexM.tokenize call bound input m = some (.ok ts, n)) ∧
      Splits m.lexer.options.source input ts := by
  have hstart : Splitting m.lexer.options.source [] input [] (m.withPass (.start input)) :=
    ⟨hmode, rfl, rfl, rfl, rfl, rfl, rfl⟩
  obtain ⟨n, hall, hn⟩ := hstart.pushAll hbound
  have hclosed : n.lexer.pass.open? = none := by
    rw [Pass.open?, Pass.incomplete?_eq_none_iff.2 ⟨hn.rest, hn.stack⟩]
    split <;> rfl
  refine ⟨n.lexer.pass.tokens.toList, n, ?_, ?_⟩
  · intro call
    exact LexM.lex_of_closed (hall call) hclosed
  · rw [hn.tokens, List.nil_append]
    exact splits_characters _ input

def failingCharacters : Machine :=
  ⟨⟨.start [], ⟨[("x", .mk (.fail .lookbehind))]⟩, ⟨.character, some "here", .none⟩⟩, #[]⟩

theorem tokenize_characters_lines :
    failingCharacters.lexer.options.mode = .character ∧ "é\n€".toList.length < 4 ∧
      ∃ ts n, LexM.tokenize (fun _ => LexM.timeout) 4 "é\n€".toList failingCharacters =
          some (.ok ts, n) ∧
        ts[2]? = some ⟨"char", some ['€'], none, some ⟨⟨3, 2, 1⟩, ⟨6, 2, 2⟩, some "here"⟩⟩ := by
  have hmode : failingCharacters.lexer.options.mode = .character := rfl
  have hbound : "é\n€".toList.length < 4 := by decide
  obtain ⟨ts, n, hrun, hsplits⟩ := tokenize_characters hmode hbound
  exact ⟨hmode, hbound, ts, n, hrun _, hsplits.token ['é', '\n'] '€' [] rfl⟩

end Run

end Segmentation

end ModularLexer
