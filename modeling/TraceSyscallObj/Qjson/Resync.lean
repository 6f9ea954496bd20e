import TraceSyscallObj.Qjson.Lexer

/-!
# Byte 0xFF resets the message parser

`erase` forgets line and column.  No decision of the lexer or the streamer depends on them, so
running and erasing commute; and 0xFF is an error in every state of the lexer.

* `feedAll_congr`: parsers that agree up to positions hand on the same lists up to positions;
* `erase_feed_ff`: after 0xFF every parser is the initial one up to positions;
* `resynchronises`: the two together.
-/

namespace Qjson

def Token.erase (t : Token) : Token := { t with x := 0, y := 0 }
def Lexer.erase (l : Lexer) : Lexer := { l with x := 0, y := 0 }
def Streamer.erase (s : Streamer) : Streamer := { s with tokens := s.tokens.map Token.erase }
def Emitted.erase (e : Emitted) : Emitted := { e with tokens := e.tokens.map (·.map Token.erase) }
def MessageParser.erase (p : MessageParser) : MessageParser :=
  { lexer := p.lexer.erase, streamer := p.streamer.erase }

/-! ## running commutes with erasing -/

/-- the result of the loop without positions -/
def eraseLoop (r : Lexer × List Token × Bool) : Lexer × List Token × Bool :=
  (r.1.erase, r.2.1.map Token.erase, r.2.2)

lemma feedLoop_erase (ch : Byte) (flush : Bool) (fuel : Nat) : ∀ l : Lexer,
    eraseLoop (feedLoop ch flush fuel l) = feedLoop ch flush fuel l.erase := by
  induction fuel with
  | zero =>
    intro l
    rfl
  | succ fuel ih =>
    intro l
    cases h : jsonLexer l.state ch with
    | state s =>
      have h' : jsonLexer l.erase.state ch = .state s := h
      by_cases he : s = .inError
      · subst he
        have hbad : (l.bad ch).erase = l.erase.bad ch := by
          unfold Lexer.bad
          rw [show l.erase.state = l.state from rfl]
          split
          · rfl
          · rfl
        rw [feedLoop_error h, feedLoop_error h', ← hbad]
        rfl
      · rw [feedLoop_goto h he, feedLoop_goto h' he]
        rfl
    | terminal t =>
      have h' : jsonLexer l.erase.state ch = .terminal t := h
      have haccept : ∀ l : Lexer, (l.accept t).map Token.erase = l.erase.accept t := by
        intro l
        unfold Lexer.accept
        split
        · rfl
        · rfl
      cases hl : terminalNeededLookahead l.state (.terminal t) with
      | false =>
        rw [feedLoop_accept h hl, feedLoop_accept h' hl]
        show (_, ((l.push ch).accept t).map Token.erase, _) = _
        rw [haccept]
        rfl
      | true =>
        cases flush with
        | false =>
          have hr : eraseLoop (feedLoop ch false fuel l.reset) = feedLoop ch false fuel l.erase.reset :=
            ih l.reset
          rw [feedLoop_lookahead h hl, feedLoop_lookahead h' hl, ← hr]
          show (_, (l.accept t ++ _).map Token.erase, _) = _
          rw [List.map_append, haccept]
          rfl
        | true =>
          rw [feedLoop_flush h hl, feedLoop_flush h' hl]
          show (_, (l.accept t).map Token.erase, _) = _
          rw [haccept]
          rfl

def eraseOut (r : Lexer × List Token) : Lexer × List Token := (r.1.erase, r.2.map Token.erase)

lemma limitToken_erase (r : Lexer × List Token × Bool) :
    eraseOut (limitToken r) = limitToken (eraseLoop r) := by
  unfold limitToken
  rw [show (eraseLoop r).2.2 = r.2.2 from rfl,
    show (eraseLoop r).1.token.length = r.1.token.length from rfl]
  split
  · rfl
  · split
    · show (_, (r.2.1 ++ _).map Token.erase) = _
      rw [List.map_append]
      rfl
    · rfl

lemma advance_erase (l : Lexer) (ch : Byte) : (l.advance ch).erase = l.erase := by
  unfold Lexer.advance
  split
  · rfl
  · rfl

lemma jsonLexerFeedChar_erase (l : Lexer) (ch : Byte) (flush : Bool) :
    eraseOut (jsonLexerFeedChar l ch flush) = limitToken (feedLoop ch flush 2 l.erase) := by
  unfold jsonLexerFeedChar
  rw [limitToken_erase, feedLoop_erase, advance_erase]

def eraseEmit (r : Streamer × List Emitted) : Streamer × List Emitted :=
  (r.1.erase, r.2.map Emitted.erase)

lemma processToken_erase (s : Streamer) (t : Token) :
    eraseEmit (processToken s t) = processToken s.erase t.erase := by
  have htokens : (s.tokens ++ [t]).map Token.erase = s.erase.tokens ++ [t.erase] := List.map_append
  unfold processToken
  rw [show brace t.erase = brace t from rfl, show bracket t.erase = bracket t from rfl,
    show t.erase.text = t.text from rfl, show t.erase.type = t.type from rfl, ← htokens]
  simp only [show s.erase.braceCount = s.braceCount from rfl,
    show s.erase.bracketCount = s.bracketCount from rfl,
    show s.erase.tokenSize = s.tokenSize from rfl]
  split
  · rfl
  · split
    · rfl
    · split
      · rfl
      · rfl

lemma processTokens_erase (s : Streamer) (ts : List Token) :
    eraseEmit (Transduce.run processToken s ts) =
      Transduce.run processToken s.erase (ts.map Token.erase) :=
  Transduce.run_hom processToken_erase s ts

def SameUpToPos (p p' : MessageParser) : Prop := p.erase = p'.erase

/-- the two parsers agree up to positions and have handed on the same lists up to positions -/
def Agree (r r' : MessageParser × List Emitted) : Prop :=
  r.1.erase = r'.1.erase ∧ r.2.map Emitted.erase = r'.2.map Emitted.erase

lemma feedChar_congr {p p' : MessageParser} (h : p.erase = p'.erase) (ch : Byte) (flush : Bool) :
    Agree (feedChar p ch flush) (feedChar p' ch flush) := by
  have hl : p.lexer.erase = p'.lexer.erase := congrArg MessageParser.lexer h
  have hs : p.streamer.erase = p'.streamer.erase := congrArg MessageParser.streamer h
  have h1 : eraseOut (jsonLexerFeedChar p.lexer ch flush) =
      eraseOut (jsonLexerFeedChar p'.lexer ch flush) := by
    rw [jsonLexerFeedChar_erase, jsonLexerFeedChar_erase, hl]
  have h2 : eraseEmit (Transduce.run processToken p.streamer
        (jsonLexerFeedChar p.lexer ch flush).2) =
      eraseEmit (Transduce.run processToken p'.streamer
        (jsonLexerFeedChar p'.lexer ch flush).2) := by
    rw [processTokens_erase, processTokens_erase, hs]
    exact congrArg (Transduce.run processToken _) (congrArg Prod.snd h1)
  constructor
  · show MessageParser.mk _ _ = MessageParser.mk _ _
    exact congr (congrArg MessageParser.mk (congrArg Prod.fst h1)) (congrArg Prod.fst h2)
  · exact congrArg Prod.snd h2

lemma apply_congr {p p' : MessageParser} (h : p.erase = p'.erase) (input : Input) :
    Agree (input.apply p) (input.apply p') := by
  cases input with
  | feed buffer =>
    refine Transduce.run_rel (R := SameUpToPos) (g := Emitted.erase) ?_ h buffer
    intro p p' ch h
    exact feedChar_congr h ch false
  | flush =>
    have hs : p.lexer.state = p'.lexer.state := congrArg (fun q => q.lexer.state) h
    show Agree (jsonMessageParserFlush p) (jsonMessageParserFlush p')
    unfold jsonMessageParserFlush
    rw [hs]
    split
    · exact ⟨h, rfl⟩
    · exact feedChar_congr h 0 true

lemma feedAll_congr {p p' : MessageParser} (h : p.erase = p'.erase) (inputs : List Input) :
    Agree (feedAll p inputs) (feedAll p' inputs) := by
  refine Transduce.run_rel (R := SameUpToPos) (g := Emitted.erase) ?_ h inputs
  intro p p' input h
  exact apply_congr h input

/-! ## the byte 0xFF -/

lemma jsonLexer_ff (s : State) : jsonLexer s 0xFF = .state .inError := by
  cases s <;> rfl

lemma feedChar_ff (p : MessageParser) : (feedChar p 0xFF false).1.erase = jsonMessageParserInit ∧
    (feedChar p 0xFF false).2 = [{ tokens := none, limit := false }] := by
  have hl : jsonLexerFeedChar p.lexer 0xFF false = ((p.lexer.advance 0xFF).reset,
      [((p.lexer.advance 0xFF).bad 0xFF).emit .error]) := by
    unfold jsonLexerFeedChar
    rw [feedLoop_error (jsonLexer_ff _)]
    rfl
  unfold feedChar
  rw [hl]
  exact ⟨rfl, rfl⟩

/-- **Byte 0xFF resynchronises the message parser**: what it hands on for `m` does not depend on
what came before. -/
theorem resynchronises (p q m : List Input) :
    (feedAll (feedAll jsonMessageParserInit (p ++ [.feed [0xFF]])).1 m).2.map Emitted.erase =
      (feedAll (feedAll jsonMessageParserInit (q ++ [.feed [0xFF]])).1 m).2.map Emitted.erase := by
  have hreset : ∀ r, (feedAll jsonMessageParserInit (r ++ [.feed [0xFF]])).1.erase =
      jsonMessageParserInit := by
    intro r
    unfold feedAll
    rw [Transduce.run_append]
    exact (feedChar_ff _).1
  exact (feedAll_congr ((hreset p).trans (hreset q).symm) m).2

end Qjson
