import Abacus.Proofs.Expr.Acceptance
import Abacus.Proofs.Token.Cutting

/-!
# Where an expression goes wrong

A rule goes by the tokens that it has read and by the one that comes next. So a rule that stops at a
token would stop there whatever followed, and what it has read until then can still be completed.
This is stated for readings in general, passed on from one reading to the next that goes on behind
it, and then checked rule by rule. The nested rules are taken for granted first, as an induction on
the depth gives them.
-/

namespace Abacus.Expr

/-- The grammar derives an expression from the kinds, however high or deep it is. -/
def Valid (kinds : List Token.Kind) : Prop := ∃ e depth, Derives .sum kinds e depth

/-- The kinds are the front of a part. -/
def Opens (part : Part) (kinds : List Token.Kind) : Prop :=
  ∃ more e depth, Derives part (kinds ++ more) e depth

/-! ## Readings -/

/-- Something that reads a result at the front of some tokens and leaves the tokens behind it. -/
abbrev Reading (α : Type) := List Token → Except SyntaxError (α × List Token)

/-- What the kinds of the tokens that were read have to do with a result: those that a result stands
for, and those that may go on to a result. -/
structure Account (α : Type) where
  whole : List Token.Kind → α → Prop
  front : List Token.Kind → Prop

/-- The account of what is read behind tokens of the given kinds. -/
def Account.behind {α : Type} (account : Account α) (kinds : List Token.Kind) : Account α where
  whole more := account.whole (kinds ++ more)
  front more := account.front (kinds ++ more)

@[simp] theorem Account.behind_nil {α : Type} (account : Account α) :
    account.behind [] = account := rfl

@[simp] theorem Account.behind_behind {α : Type} (account : Account α)
    (kinds more : List Token.Kind) :
    (account.behind kinds).behind more = account.behind (kinds ++ more) := by
  simp [Account.behind]

/-- What a reading does with some tokens agrees with an account. A result depends on the tokens that
it stands for and on the next one; an unexpected token is found whatever follows it, behind tokens
that may go on to a result; and so may all the tokens where they end too early. -/
def Explained {α : Type} (account : Account α) (reading : Reading α) (tokens : List Token) : Prop :=
  match reading tokens with
  | .ok (a, rest) => ∃ front, tokens = front ++ rest ∧ account.whole (front.map (·.kind)) a ∧
      ∀ other, other.head? = rest.head? → reading (front ++ other) = .ok (a, other)
  | .error (.unexpectedToken token) => ∃ before after, tokens = before ++ token :: after ∧
      account.front (before.map (·.kind)) ∧
      ∀ other, reading (before ++ token :: other) = .error (.unexpectedToken token)
  | .error .unexpectedEnd => account.front (tokens.map (·.kind))
  | .error (.tooDeep _) => True
  | .error _ => False

/-- One reading, and another one behind it. -/
def Reading.andThen {α β : Type} (reading : Reading α) (next : α → Reading β) : Reading β :=
  fun tokens => reading tokens >>= fun result => next result.1 result.2

section Readings

variable {α β : Type} {account : Account α} {reading same : Reading α}
variable {tokens rest : List Token} {token : Token} {a : α}

theorem explained_ok (h : account.whole [] a)
    (hread : ∀ other, other.head? = tokens.head? → reading other = .ok (a, other)) :
    Explained account reading tokens := by
  rw [Explained, hread tokens rfl]
  exact ⟨[], rfl, h, hread⟩

theorem explained_tooDeep {limit : Nat} (h : reading tokens = .error (.tooDeep limit)) :
    Explained account reading tokens := by
  rw [Explained, h]
  trivial

/-- Some tokens are taken off the front, and the rest is read. That may be said with regard to the
next token. -/
theorem explained_taken (taken : List Token) (inner : Reading α)
    (hread : ∀ other, other.head? = rest.head? → reading (taken ++ other) = inner other)
    (h : Explained (account.behind (taken.map (·.kind))) inner rest) :
    Explained account reading (taken ++ rest) := by
  unfold Explained at h ⊢
  rw [hread rest rfl]
  cases hinner : inner rest with
  | ok result =>
      obtain ⟨a, behind⟩ := result
      rw [hinner] at h
      obtain ⟨front, rfl, hwhole, hother⟩ := h
      refine ⟨taken ++ front, by simp, by simpa [Account.behind] using hwhole, ?_⟩
      intro other hhead
      rw [List.append_assoc, hread _ (by simp [List.head?_append, hhead]), hother other hhead]
  | error err =>
      rw [hinner] at h
      cases err with
      | unexpectedToken found =>
          obtain ⟨before, after, rfl, hfront, hother⟩ := h
          refine ⟨taken ++ before, after, by simp, by simpa [Account.behind] using hfront, ?_⟩
          intro other
          rw [List.append_assoc, hread _ (by simp [List.head?_append]), hother other]
      | unexpectedEnd => simpa [Account.behind] using h
      | tooDeep limit => trivial
      | _ => exact h

/-- The second reading looks at the tokens that the first one leaves, and the first one at no more
than the front of those. -/
theorem Explained.andThen {first : Account α} {account : Account β} {next : α → Reading β}
    (h : Explained first reading tokens)
    (hfront : ∀ kinds, first.front kinds → account.front kinds)
    (hnext : ∀ front a rest, first.whole (front.map (·.kind)) a →
      tokens = front ++ rest → Explained (account.behind (front.map (·.kind))) (next a) rest) :
    Explained account (reading.andThen next) tokens := by
  unfold Explained Reading.andThen at *
  cases hread : reading tokens with
  | ok result =>
      obtain ⟨a, rest⟩ := result
      rw [hread] at h
      obtain ⟨front, rfl, hwhole, hother⟩ := h
      have hnext := hnext front a rest hwhole rfl
      simp only [bind, Except.bind]
      cases hbehind : next a rest with
      | ok result =>
          obtain ⟨b, behind⟩ := result
          rw [hbehind] at hnext
          obtain ⟨second, rfl, hsecond, hmore⟩ := hnext
          refine ⟨front ++ second, by simp, by simpa [Account.behind] using hsecond, ?_⟩
          intro other hhead
          rw [List.append_assoc, hother _ (by simp [List.head?_append, hhead])]
          exact hmore other hhead
      | error err =>
          rw [hbehind] at hnext
          cases err with
          | unexpectedToken token =>
              obtain ⟨before, after, rfl, hopen, hmore⟩ := hnext
              refine ⟨front ++ before, after, by simp, by simpa [Account.behind] using hopen, ?_⟩
              intro other
              rw [List.append_assoc, hother _ (by simp [List.head?_append])]
              exact hmore other
          | unexpectedEnd => simpa [Account.behind] using hnext
          | tooDeep limit => trivial
          | _ => exact hnext
  | error err =>
      rw [hread] at h
      simp only [bind, Except.bind]
      cases err with
      | unexpectedToken token =>
          obtain ⟨before, after, rfl, hopen, hother⟩ := h
          refine ⟨before, after, rfl, hfront _ hopen, ?_⟩
          intro other
          rw [hother other]
      | unexpectedEnd => exact hfront _ h
      | tooDeep limit => trivial
      | _ => exact h

/-- What is read may be said to stand for more, and to go on to more. -/
theorem Explained.mono {weaker : Account α} (h : Explained account reading tokens)
    (hwhole : ∀ kinds a, account.whole kinds a → weaker.whole kinds a)
    (hfront : ∀ kinds, account.front kinds → weaker.front kinds) :
    Explained weaker reading tokens := by
  unfold Explained at h ⊢
  cases hread : reading tokens with
  | ok result =>
      rw [hread] at h
      obtain ⟨front, htokens, h, hother⟩ := h
      exact ⟨front, htokens, hwhole _ _ h, hother⟩
  | error err =>
      rw [hread] at h
      cases err with
      | unexpectedToken token =>
          obtain ⟨before, after, htokens, h, hother⟩ := h
          exact ⟨before, after, htokens, hfront _ h, hother⟩
      | unexpectedEnd => exact hfront _ h
      | _ => exact h

end Readings

/-! ## The rules -/

/-- A part as an account: the trees that it stands for. -/
def Part.account (part : Part) : Account Expr where
  whole kinds e := ∃ depth, Derives part kinds e depth
  front kinds := Opens part kinds

/-- The closing parenthesis behind a result. -/
def closing {α : Type} (a : α) : Reading α := fun tokens => do
  let behind ← afterParen tokens
  .ok (a, behind)

/-- A tree that is given back if it is not too high. -/
def checked (limit : Nat) (e : Expr) : Reading Expr := fun tokens => do
  let e ← checkHeight limit e
  .ok (e, tokens)

/-- The argument of a call, behind the opening parenthesis. -/
def inCall (nested : Rules) (function : String) : Reading Expr :=
  Reading.andThen (read nested.sum) fun argument =>
    Reading.andThen (closing argument) fun argument =>
      checked nested.limit (.call function argument)

/-- The right operand of an operation, and what the chain goes on with behind it. -/
def onward (limit : Nat) (ops : List Operation) (operand : Rule) (op : Operation) (lhs : Expr) :
    Reading Expr :=
  Reading.andThen (read operand) fun rhs =>
    Reading.andThen (checked limit (.binary op lhs rhs)) (readFrom limit ops operand)

theorem read_primary_inCall {nested : Rules} (function : String) (position opened : Nat)
    (rest : List Token) :
    read (primary nested) (⟨.name function, position⟩ :: ⟨.leftParen, opened⟩ :: rest) =
      inCall nested function rest := by
  rw [read_primary_call, inCall, Reading.andThen]
  cases read nested.sum rest with
  | error err => rfl
  | ok result =>
      simp only [bind, Except.bind, Reading.andThen, closing]
      cases afterParen result.2 <;> rfl

theorem readFrom_onward {limit : Nat} {ops : List Operation} {operand : Rule} {op : Operation}
    (hop : op ∈ ops) (lhs : Expr) (position : Nat) (rest : List Token) :
    readFrom limit ops operand lhs (⟨.operator op, position⟩ :: rest) =
      onward limit ops operand op lhs rest := by
  rw [readFrom_operator hop, onward, Reading.andThen]
  cases read operand rest with
  | error err => rfl
  | ok result =>
      simp only [bind, Except.bind, Reading.andThen, checked]
      cases checkHeight limit (.binary op lhs result.1) <;> rfl

/-- A closing parenthesis, and nothing in front of it. -/
def closingAccount {α : Type} (a : α) : Account α where
  whole kinds b := kinds = [.rightParen] ∧ b = a
  front kinds := kinds = []

theorem explained_closing {α : Type} (a : α) (tokens : List Token) :
    Explained (closingAccount a) (closing a) tokens := by
  rcases tokens with _ | ⟨⟨kind, position⟩, rest⟩
  · exact rfl
  cases kind with
  | rightParen => exact ⟨[⟨.rightParen, position⟩], rfl, ⟨rfl, rfl⟩, fun _ _ => rfl⟩
  | _ => exact ⟨[], rest, rfl, rfl, fun _ => rfl⟩

theorem explained_checked {account : Account Expr} {e : Expr} (h : account.whole [] e)
    (limit : Nat) (tokens : List Token) : Explained account (checked limit e) tokens := by
  by_cases hheight : e.height ≤ limit
  · apply explained_ok h
    intro other _
    rw [checked, checkHeight_of_le hheight]
    rfl
  · apply explained_tooDeep
    rw [checked, checkHeight_of_lt (Nat.lt_of_not_le hheight)]
    rfl

/-- The nested rules agree with the parts that they read. -/
structure NestedExplained (nested : Rules) : Prop where
  signed : ∀ tokens, Explained Part.signed.account (read nested.signed) tokens
  sum : ∀ tokens, Explained Part.sum.account (read nested.sum) tokens

section Rules

variable {nested : Rules}

theorem ne_cons_of_head? {tokens other : List Token} {kind : Token.Kind}
    (hhead : other.head? = tokens.head?)
    (h : ¬∃ position rest, tokens = ⟨kind, position⟩ :: rest) (position : Nat)
    (rest : List Token) : other ≠ ⟨kind, position⟩ :: rest := by
  rintro rfl
  cases tokens with
  | nil => cases hhead
  | cons token others =>
      cases hhead
      exact h ⟨position, others, rfl⟩

theorem opens_of_primary (part : Part) : Opens part [] := by
  have hprimary := Derives.number Value.zero
  have hsigned := hprimary.signed_of_primary
  cases part with
  | primary => exact ⟨_, _, _, hprimary⟩
  | power => exact ⟨_, _, _, hprimary.ofPrimary⟩
  | signed => exact ⟨_, _, _, hsigned⟩
  | product => exact ⟨_, _, _, hsigned.ofSigned⟩
  | sum => exact ⟨_, _, _, hsigned.sum_of_signed⟩

theorem explained_parens (hn : NestedExplained nested) (position : Nat) (rest : List Token) :
    Explained Part.primary.account (read (primary nested)) (⟨.leftParen, position⟩ :: rest) := by
  refine explained_taken [⟨.leftParen, position⟩] (Reading.andThen (read nested.sum) closing)
    (fun _ _ => read_primary_parens) ?_
  refine (hn.sum rest).andThen ?_ ?_
  · rintro kinds ⟨more, e, depth, h⟩
    exact ⟨more ++ [.rightParen], e, depth + 1, by simpa using h.parens⟩
  · rintro front e behind ⟨depth, h⟩ -
    refine (explained_closing e behind).mono ?_ ?_
    · rintro _ _ ⟨rfl, rfl⟩
      exact ⟨depth + 1, h.parens⟩
    · rintro _ rfl
      exact ⟨[.rightParen], e, depth + 1, by simpa using h.parens⟩

theorem explained_call (hn : NestedExplained nested) (function : String) (position opened : Nat)
    (rest : List Token) :
    Explained Part.primary.account (read (primary nested))
      (⟨.name function, position⟩ :: ⟨.leftParen, opened⟩ :: rest) := by
  refine explained_taken [⟨.name function, position⟩, ⟨.leftParen, opened⟩]
    (inCall nested function) (fun other _ => read_primary_inCall function position opened other) ?_
  refine (hn.sum rest).andThen ?_ ?_
  · rintro kinds ⟨more, e, depth, h⟩
    exact ⟨more ++ [.rightParen], _, depth + 1, by simpa using h.call⟩
  · rintro front e behind ⟨depth, h⟩ -
    refine (explained_closing e behind).andThen ?_ ?_
    · rintro _ rfl
      exact ⟨[.rightParen], _, depth + 1, by simpa using h.call⟩
    · rintro closed _ behindParen ⟨hclosed, rfl⟩ -
      refine explained_checked ?_ nested.limit behindParen
      rw [hclosed]
      exact ⟨depth + 1, h.call⟩

theorem explained_primary (hn : NestedExplained nested) (tokens : List Token) :
    Explained Part.primary.account (read (primary nested)) tokens := by
  rcases tokens with _ | ⟨⟨kind, position⟩, rest⟩
  · exact opens_of_primary .primary
  cases kind with
  | number v =>
      exact ⟨[⟨.number v, position⟩], rfl, ⟨0, .number v⟩, fun _ _ => read_primary_number v⟩
  | leftParen => exact explained_parens hn position rest
  | name name =>
      by_cases hcall : ∃ opened more, rest = ⟨.leftParen, opened⟩ :: more
      · obtain ⟨opened, more, rfl⟩ := hcall
        exact explained_call hn name position opened more
      · refine explained_taken [⟨.name name, position⟩]
          (fun other => .ok (.variable name, other)) ?_ ?_
        · intro other hhead
          exact read_primary_name name (ne_cons_of_head? hhead hcall)
        · exact explained_ok ⟨0, .name name⟩ fun _ _ => rfl
  | _ => exact ⟨[], rest, rfl, opens_of_primary .primary, fun _ => rfl⟩

theorem explained_exponent (hn : NestedExplained nested) {prior : List Token.Kind} {base : Expr}
    {depth : Nat} (hbase : Derives .primary prior base depth) (tokens : List Token) :
    Explained (Part.power.account.behind prior) (readExponent nested base) tokens := by
  by_cases hpower : ∃ position rest, tokens = ⟨.operator .power, position⟩ :: rest
  · obtain ⟨position, rest, rfl⟩ := hpower
    let raised (exponent : Expr) : Reading Expr :=
      checked nested.limit (.binary .power base exponent)
    refine explained_taken [⟨.operator .power, position⟩]
      (Reading.andThen (read nested.signed) raised) (fun _ _ => rfl) ?_
    refine (hn.signed rest).andThen ?_ ?_
    · rintro kinds ⟨more, e, d, h⟩
      exact ⟨more, _, _, by simpa [Account.behind] using hbase.power h⟩
    · rintro front e behind ⟨d, h⟩ -
      refine explained_checked ?_ nested.limit behind
      exact ⟨_, by simpa [Account.behind] using hbase.power h⟩
  · refine explained_ok ⟨depth, by simpa using hbase.ofPrimary⟩ ?_
    intro other hhead
    exact readExponent_stop base (ne_cons_of_head? hhead hpower)

theorem explained_power (hn : NestedExplained nested) (tokens : List Token) :
    Explained Part.power.account (read (power nested)) tokens := by
  refine explained_taken [] (Reading.andThen (read (primary nested)) (readExponent nested))
    (fun other _ => read_power other) ?_
  refine (explained_primary hn tokens).andThen ?_ ?_
  · rintro kinds ⟨more, e, depth, h⟩
    exact ⟨more, e, depth, h.ofPrimary⟩
  · rintro front e rest ⟨depth, h⟩ -
    exact explained_exponent hn h rest

theorem explained_signed (hn : NestedExplained nested) (tokens : List Token) :
    Explained Part.signed.account (read (signed nested)) tokens := by
  by_cases hminus : ∃ position rest, tokens = ⟨.operator .subtract, position⟩ :: rest
  · obtain ⟨position, rest, rfl⟩ := hminus
    let negated (operand : Expr) : Reading Expr := checked nested.limit (.negate operand)
    refine explained_taken [⟨.operator .subtract, position⟩]
      (Reading.andThen (read nested.signed) negated) (fun _ _ => read_signed_minus) ?_
    refine (hn.signed rest).andThen ?_ ?_
    · rintro kinds ⟨more, e, depth, h⟩
      exact ⟨more, _, _, h.minus⟩
    · rintro front e behind ⟨depth, h⟩ -
      refine explained_checked ?_ nested.limit behind
      exact ⟨_, by simpa [Account.behind] using h.minus⟩
  by_cases hplus : ∃ position rest, tokens = ⟨.operator .add, position⟩ :: rest
  · obtain ⟨position, rest, rfl⟩ := hplus
    refine explained_taken [⟨.operator .add, position⟩] (read nested.signed)
      (fun _ _ => read_signed_plus) ?_
    refine (hn.signed rest).mono ?_ ?_
    · rintro kinds e ⟨depth, h⟩
      exact ⟨_, h.plus⟩
    · rintro kinds ⟨more, e, depth, h⟩
      exact ⟨more, e, _, h.plus⟩
  refine explained_taken [] (read (power nested)) ?_ ?_
  · intro other hhead
    apply read_signed_power
    intro op hop
    simp only [List.mem_cons, List.not_mem_nil, or_false] at hop
    rcases hop with rfl | rfl
    · exact ne_cons_of_head? hhead hplus
    · exact ne_cons_of_head? hhead hminus
  · refine (explained_power hn tokens).mono ?_ ?_
    · rintro kinds e ⟨depth, h⟩
      exact ⟨depth, h.ofPower⟩
    · rintro kinds ⟨more, e, depth, h⟩
      exact ⟨more, e, depth, h.ofPower⟩

variable {outer inner : Part} {ops : List Operation}

/-- The induction is on the tokens behind the left operand. Its own tokens, and those of all that is
read behind it, go into the account of the part. -/
theorem explained_readFrom (hchain : ChainOf outer inner ops)
    (hinner : ∀ tokens, Explained inner.account (read (inner.rule nested)) tokens)
    {prior : List Token.Kind} {lhs : Expr} {depth : Nat} (hlhs : Derives outer prior lhs depth)
    (tokens : List Token) :
    Explained (outer.account.behind prior)
      (readFrom nested.limit ops (inner.rule nested) lhs) tokens := by
  induction hlength : tokens.length using Nat.strongRecOn generalizing tokens prior lhs depth with
  | ind length ih =>
      by_cases hop : ∃ op ∈ ops, ∃ position rest, tokens = ⟨.operator op, position⟩ :: rest
      · obtain ⟨op, hop, position, rest, rfl⟩ := hop
        refine explained_taken [⟨.operator op, position⟩]
          (onward nested.limit ops (inner.rule nested) op lhs)
          (fun other _ => readFrom_onward hop lhs position other) ?_
        refine (hinner rest).andThen ?_ ?_
        · rintro kinds ⟨more, e, d, h⟩
          exact ⟨more, _, _, by simpa [Account.behind] using hchain.derives_chain hop hlhs h⟩
        · rintro front rhs behind ⟨d, h⟩ rfl
          let unchanged : Account Expr :=
            ⟨fun kinds e => kinds = [] ∧ e = .binary op lhs rhs, fun _ => False⟩
          have hjoined :
              Explained unchanged (checked nested.limit (.binary op lhs rhs)) behind := by
            apply explained_checked
            exact ⟨rfl, rfl⟩
          refine hjoined.andThen (fun _ h => h.elim) ?_
          rintro none e rest ⟨hnone, rfl⟩ rfl
          rw [List.map_eq_nil_iff] at hnone
          subst hnone
          have hshorter : rest.length < length := by
            rw [← hlength]
            simp only [List.length_cons, List.length_append]
            omega
          have hwhole := hchain.derives_chain hop hlhs h
          simpa using ih rest.length hshorter hwhole rest rfl
      · refine explained_ok ⟨depth, by simpa using hlhs⟩ ?_
        intro other hhead
        apply readFrom_stop
        intro op hmem
        apply ne_cons_of_head? hhead
        exact fun ⟨position, rest, heq⟩ => hop ⟨op, hmem, position, rest, heq⟩

theorem explained_chain (hchain : ChainOf outer inner ops)
    (hinner : ∀ tokens, Explained inner.account (read (inner.rule nested)) tokens)
    (tokens : List Token) : Explained outer.account (read (outer.rule nested)) tokens := by
  refine explained_taken [] (Reading.andThen (read (inner.rule nested))
    (readFrom nested.limit ops (inner.rule nested))) ?_ ?_
  · intro other _
    rw [hchain.rule_eq]
    exact read_chain other
  · refine (hinner tokens).andThen ?_ ?_
    · rintro kinds ⟨more, e, depth, h⟩
      exact ⟨more, e, depth, hchain.derives_operand h⟩
    · rintro front lhs rest ⟨depth, h⟩ -
      exact explained_readFrom hchain hinner (hchain.derives_operand h) rest

theorem explained_sum (hn : NestedExplained nested) (tokens : List Token) :
    Explained Part.sum.account (read (sum nested)) tokens :=
  explained_chain sum_chainOf_product
    (explained_chain product_chainOf_signed (explained_signed hn)) tokens

end Rules

theorem nestedExplained_rulesOfDepth (limit depth : Nat) :
    NestedExplained (rulesOfDepth limit depth) := by
  induction depth with
  | zero => exact ⟨fun _ => explained_tooDeep rfl, fun _ => explained_tooDeep rfl⟩
  | succ depth ih => exact ⟨explained_signed ih, explained_sum ih⟩

/-! ## Whole expressions -/

section Tokens

variable {tokens before : List Token} {token : Token}

/-- A fault is one of the rule for sums, or the rule leaves a token behind. -/
theorem fault_cases {err : SyntaxError} (hne : tokens ≠ []) (h : ofTokens tokens = .error err) :
    read (sum (rulesOfDepth maxDepth maxDepth)) tokens = .error err ∨
      ∃ e token after, read (sum (rulesOfDepth maxDepth maxDepth)) tokens =
        .ok (e, token :: after) ∧ err = .unexpectedToken token := by
  rw [ofTokens_eq hne] at h
  cases hread : read (sum (rulesOfDepth maxDepth maxDepth)) tokens with
  | error other =>
      rw [hread] at h
      cases h
      exact Or.inl rfl
  | ok result =>
      obtain ⟨e, rest⟩ := result
      rw [hread] at h
      cases rest with
      | nil => cases h
      | cons token after =>
          cases h
          exact Or.inr ⟨e, token, after, rfl, rfl⟩

theorem explained_whole (tokens : List Token) :
    Explained Part.sum.account (read (sum (rulesOfDepth maxDepth maxDepth))) tokens :=
  explained_sum (nestedExplained_rulesOfDepth maxDepth maxDepth) tokens

theorem exists_of_unexpectedToken (h : ofTokens tokens = .error (.unexpectedToken token)) :
    ∃ before after, tokens = before ++ token :: after ∧ Opens .sum (before.map (·.kind)) ∧
      ∀ other, ofTokens (before ++ token :: other) = .error (.unexpectedToken token) := by
  have hne : tokens ≠ [] := by
    rintro rfl
    cases h
  have hsum := explained_whole tokens
  obtain hread | ⟨e, first, after, hread, hfirst⟩ := fault_cases hne h
  · rw [Explained, hread] at hsum
    obtain ⟨before, after, htokens, hopen, hother⟩ := hsum
    refine ⟨before, after, htokens, hopen, ?_⟩
    intro other
    rw [ofTokens_eq (by simp), hother other]
    rfl
  · cases hfirst
    rw [Explained, hread] at hsum
    obtain ⟨front, htokens, ⟨depth, hderives⟩, hother⟩ := hsum
    refine ⟨front, after, htokens, ⟨[], e, depth, by simpa using hderives⟩, ?_⟩
    intro other
    rw [ofTokens_eq (by simp), hother (token :: other) rfl]
    rfl

theorem opens_of_unexpectedEnd (h : ofTokens tokens = .error .unexpectedEnd) :
    Opens .sum (tokens.map (·.kind)) := by
  have hne : tokens ≠ [] := by
    rintro rfl
    cases h
  have hsum := explained_whole tokens
  obtain hread | ⟨e, first, after, -, hfirst⟩ := fault_cases hne h
  · rw [Explained, hread] at hsum
    exact hsum
  · cases hfirst

theorem ofTokens_ne_empty (hne : tokens ≠ []) : ofTokens tokens ≠ .error .empty := by
  intro h
  have hsum := explained_whole tokens
  obtain hread | ⟨e, first, after, -, hfirst⟩ := fault_cases hne h
  · rw [Explained, hread] at hsum
    exact hsum
  · cases hfirst

theorem ofTokens_of_valid (h : Valid (tokens.map (·.kind))) :
    (∃ e, ofTokens tokens = .ok e) ∨ ofTokens tokens = .error (.tooDeep maxDepth) := by
  obtain ⟨e, depth, hderives⟩ := h
  rw [ofTokens_of_derives hderives, bounded]
  split
  · exact Or.inl ⟨e, rfl⟩
  · exact Or.inr rfl

theorem valid_of_opens {kinds : List Token.Kind} (h : Opens .sum kinds) :
    ∃ more, Valid (kinds ++ more) := by
  obtain ⟨more, e, depth, h⟩ := h
  exact ⟨more, e, depth, h⟩

/-- A token that is unexpected whatever follows it is the next token of no expression. The kinds
that would follow it in one are put behind it as tokens. -/
theorem not_valid_of_unexpectedToken
    (h : ∀ other, ofTokens (before ++ token :: other) = .error (.unexpectedToken token)) :
    ¬∃ more, Valid ((before ++ [token]).map (·.kind) ++ more) := by
  rintro ⟨more, hvalid⟩
  let other : List Token := more.map fun kind => ⟨kind, 0⟩
  have hkinds : (before ++ token :: other).map (·.kind) =
      (before ++ [token]).map (·.kind) ++ more := by
    simp [other, Function.comp_def]
  rw [← hkinds] at hvalid
  rcases ofTokens_of_valid hvalid with ⟨e, hok⟩ | hdeep
  · rw [h other] at hok
    cases hok
  · rw [h other] at hdeep
    cases hdeep

theorem not_valid_of_unexpectedEnd (h : ofTokens tokens = .error .unexpectedEnd) :
    ¬Valid (tokens.map (·.kind)) := by
  intro hvalid
  rcases ofTokens_of_valid hvalid with ⟨e, hok⟩ | hdeep
  · rw [h] at hok
    cases hok
  · rw [h] at hdeep
    cases hdeep

end Tokens

/-- A syntax error points at the first token that no expression goes on with. An unexpected token is
the only one at its position, which is the number of bytes in front of it, and it is named in the
message. What stands in front of it is the front of an expression, and what goes up to it and
includes it is not. Where the end comes too early, the tokens are no expression, but the front of a
longer one. Only a text without tokens is empty. Here an expression is one of the grammar, however
high or deep it is. -/
theorem parse_fault_located (text : String) :
    match Token.tokenize text with
    | .error err => parse text = .error err
    | .ok tokens =>
      (∀ token, parse text = .error (.unexpectedToken token) →
        tokens.filter (·.position = token.position) = [token] ∧
        (SyntaxError.unexpectedToken token).message =
          "unexpected '" ++ token.kind.text ++ "' at position " ++ toString token.position ∧
        (∃ skipped c more behind, text.toList = skipped ++ c :: (more ++ behind) ∧
          token.position = Token.byteWidth skipped ∧
          Token.front token.position c (more ++ behind) = .ok (token.kind, c :: more)) ∧
        ∃ before after, tokens = before ++ token :: after ∧
          (∃ more, Valid (before.map (·.kind) ++ more)) ∧
          ¬∃ more, Valid ((before ++ [token]).map (·.kind) ++ more)) ∧
      (parse text = .error .unexpectedEnd →
        ¬Valid (tokens.map (·.kind)) ∧
        ∃ more, more ≠ [] ∧ Valid (tokens.map (·.kind) ++ more)) ∧
      (parse text = .error .empty ↔ tokens = []) := by
  unfold parse
  cases htokens : Token.tokenize text with
  | error err => rfl
  | ok tokens =>
      have hparse : ((.ok tokens : Except SyntaxError (List Token)) >>= fun read => ofTokens read) =
          ofTokens tokens := rfl
      simp only [hparse]
      refine ⟨?_, ?_, ?_⟩
      · intro token h
        obtain ⟨before, after, rfl, hopen, hother⟩ := exists_of_unexpectedToken h
        have hcut := Token.cut_of_tokenize htokens
        have hplace := hcut.exists_place (List.mem_append_right before (List.mem_cons_self ..))
        simp only [Nat.zero_add] at hplace
        exact ⟨hcut.filter_position, rfl, hplace, before, after, rfl, valid_of_opens hopen,
          not_valid_of_unexpectedToken hother⟩
      · intro h
        have hinvalid := not_valid_of_unexpectedEnd h
        obtain ⟨more, hvalid⟩ := valid_of_opens (opens_of_unexpectedEnd h)
        refine ⟨hinvalid, more, ?_, hvalid⟩
        rintro rfl
        exact hinvalid (by simpa using hvalid)
      · constructor
        · intro h
          cases tokens with
          | nil => rfl
          | cons token rest => exact absurd h (ofTokens_ne_empty (List.cons_ne_nil token rest))
        · rintro rfl
          rfl

end Abacus.Expr
