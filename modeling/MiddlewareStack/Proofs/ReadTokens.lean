import MiddlewareStack.Proofs.Rescan
import MiddlewareStack.Source.Grammar

/-!
# What readers do

How the parts of a reader run on given tokens, and what looking ahead finds there. With these a
reader is evaluated step by step.
-/

namespace MiddlewareStack.Source

variable {α β : Type}

namespace TokenReader

variable {reader : TokenReader α} {next : α → TokenReader β} {tokens rest : List Token} {value : α}
  {test : List Token → Bool} {text name : String} {d : Delimiter}

@[simp] theorem run_pure (value : α) (tokens : List Token) :
    (pure value : TokenReader α).run tokens = some (value, tokens) := rfl

@[simp] theorem run_failure (tokens : List Token) :
    (failure : TokenReader α).run tokens = none := rfl

@[simp] theorem run_bind (reader : TokenReader α) (next : α → TokenReader β) (tokens : List Token) :
    (reader >>= next).run tokens =
      (reader.run tokens).bind fun found => (next found.1).run found.2 := by
  change (reader.andThen next).run tokens = _
  simp only [andThen]
  cases reader.run tokens <;> rfl

@[simp] theorem run_ite (p : Prop) [Decidable p] (first second : TokenReader α)
    (tokens : List Token) :
    (if p then first else second).run tokens =
      if p then first.run tokens else second.run tokens := by
  split <;> rfl

@[simp] theorem run_later (reader : Unit → TokenReader α) (tokens : List Token) :
    (later reader).run tokens = (reader ()).run tokens := rfl

@[simp] theorem run_remaining (tokens : List Token) :
    remaining.run tokens = some (tokens, tokens) := rfl

@[simp] theorem run_next (first : Token) (rest : List Token) :
    TokenReader.next.run (first :: rest) = some (first, rest) := rfl

@[simp] theorem run_ahead (test : List Token → Bool) (tokens : List Token) :
    (ahead test).run tokens = some (test tokens, tokens) := rfl

@[simp] theorem run_anyName (name : String) (rest : List Token) :
    anyName.run (.ident name :: rest) = some (name, rest) := rfl

@[simp] theorem run_require (test : List Token → Bool) (tokens : List Token) :
    (require test).run tokens = if test tokens then some ((), tokens) else none := by
  simp only [require, run_bind, run_remaining, Option.bind_some, run_ite, run_pure, run_failure]

@[simp] theorem run_word (text name : String) (rest : List Token) :
    (word text).run (.ident name :: rest) = if name = text then some ((), rest) else none := by
  by_cases same : name = text <;> simp [word, Lookahead.word, same]

@[simp] theorem run_skipWord (text : String) (tokens : List Token) :
    (skipWord text).run tokens =
      if Lookahead.word text tokens then some (true, tokens.tail) else some (false, tokens) := by
  cases tokens with
  | nil => simp [skipWord, Lookahead.word]
  | cons first rest => simp [skipWord]

@[simp] theorem run_drop (count : Nat) (tokens : List Token) :
    (drop count).run tokens = some ((), tokens.drop count) := rfl

@[simp] theorem run_operator (text : String) (tokens : List Token) :
    (operator text).run tokens =
      if Lookahead.operator text tokens then some ((), tokens.drop text.length) else none := by
  by_cases found : Lookahead.operator text tokens <;> simp [operator, found]

@[simp] theorem run_skipOperator (text : String) (tokens : List Token) :
    (skipOperator text).run tokens =
      if Lookahead.operator text tokens then some (true, tokens.drop text.length)
      else some (false, tokens) := by
  by_cases found : Lookahead.operator text tokens <;> simp [skipOperator, found]

@[simp] theorem run_lifetime (name : String) (rest : List Token) :
    lifetime.run (.punct '\'' true :: .ident name :: rest) = some (name, rest) := by
  simp [lifetime, Lookahead.lifetime]

theorem run_optionalLifetime (lifetime : Option String) (h : Lookahead.lifetime tokens = false) :
    optionalLifetime.run ((lifetime.map Token.lifetime).getD [] ++ tokens) =
      some (lifetime, tokens) := by
  cases lifetime with
  | none => simp [optionalLifetime, h]
  | some name => simp [optionalLifetime, Token.lifetime, Lookahead.lifetime]

@[simp] theorem run_content (d : Delimiter) (content rest : List Token) :
    (TokenReader.content d).run (.group d content :: rest) = some (content, rest) := by
  simp [TokenReader.content, Lookahead.group]

theorem run_within (h : reader.run tokens = some (value, [])) (rest : List Token) :
    (within tokens reader).run rest = some (value, rest) := by
  simp [within, h]

end TokenReader

end MiddlewareStack.Source
