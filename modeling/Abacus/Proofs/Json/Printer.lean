import Mathlib
import Abacus.Json.Reader
import Abacus.Proofs.Json.Quotation

/-!
# What is written is read back

A value in the compact form is read back as it is, in whatever containers it stands, as long as its
numbers can be written, its names differ and its nesting can be followed.

* `Value.Readable`: the values that can be read back when a number of containers may still be
  opened;
* `Reader.ExpectsValue`, `Reader.ExpectsName`: the states in which a value or a name comes next;
* `Reader.ReadsBack`: reading the form of a value leads to the state after that value;
* `Reader.readsBack_of_readable`: it does for readable values, by induction on the value;
* `ofDecoded_write`: the value of the text of a readable value is the value.
-/

namespace Abacus.Json

open Token (NumberEnds)

/-- A value can be written and read back where `room` more containers may be open. -/
inductive Value.Readable : (room : ℕ) → Value → Prop
  | null {room} : Readable room .null
  | bool {room} (b : Bool) : Readable room (.bool b)
  | text {room} (t : Text) : Readable room (.text t)
  | int {room} {n : ℤ} (h : (Text.ofNat n.natAbs).length ≤ Token.digitLimit) :
      Readable room (.int n)
  | float {room} {x : Float} (h : x.isFinite = true) : Readable room (.float x)
  | array {room} {items : List Value} (h : ∀ v ∈ items, Readable room v) :
      Readable (room + 1) (.array items)
  | object {room} {members : Members} (names : (members.map Prod.fst).Nodup)
      (h : ∀ m ∈ members, Readable room m.2) : Readable (room + 1) (.object members)

theorem Members.put_of_notMem {name : Text} {members : Members} (v : Value)
    (h : name ∉ members.map Prod.fst) : members.put name v = members ++ [(name, v)] := by
  induction members with
  | nil => rfl
  | cons m members ih =>
    obtain ⟨n, w⟩ := m
    rw [List.map_cons, List.mem_cons, not_or] at h
    rw [put, if_neg (Ne.symm h.1), ih h.2, List.cons_append]

theorem floatText_of_isFinite {x : Float} (hx : x.isFinite = true) :
    floatText x = Number.text x := by
  obtain ⟨hnan, hinf⟩ := Number.isNaN_isInf_of_isFinite hx
  rw [floatText, hnan, hinf]
  rfl

namespace Reader

/-! ## States -/

/-- A value inside `stack` comes next. -/
def ExpectsValue (s : State) (stack : List Frame) : Prop :=
  s = .value stack ∨ ∃ below, s = .itemOrEnd below ∧ stack = .array [] :: below

/-- The name of a member comes next, after `members`. -/
def ExpectsName (s : State) (stack : List Frame) (members : Members) : Prop :=
  s = .name stack members ∨ s = .nameOrEnd stack ∧ members = []

theorem step_of_expectsValue {s : State} {stack : List Frame} (hs : ExpectsValue s stack)
    {t : Located} (ht : t.token ≠ .closeArray) : step s t = readValue stack t := by
  rcases hs with rfl | ⟨below, rfl, rfl⟩
  · rfl
  · rw [step]
    split
    · next h => exact absurd h ht
    · rfl

theorem step_of_expectsName {s : State} {stack : List Frame} {members : Members}
    (hs : ExpectsName s stack members) {t : Located} (ht : t.token ≠ .closeObject) :
    step s t = readName stack members t := by
  rcases hs with rfl | ⟨rfl, rfl⟩
  · rfl
  · rw [step]
    split
    · next h => exact absurd h ht
    · rfl

theorem run_cons_of_ok {s next : State} {t : Located} (h : step s t = .ok next) (size : ℕ)
    (ts : List Located) : run size s (t :: ts) = run size next ts := by
  rw [run, h]

/-- The token of a text is read, and what follows stands before the reader. -/
theorem run_of_lexes {t : Text} {k : Token} {rest : Text} (ht : Lexes t k rest) {s next : State}
    (offset size : ℕ) (h : step s ⟨k, offset⟩ = .ok next) :
    run size s (tokensFrom offset (t ++ rest)) =
      run size next (tokensFrom (offset + t.length) rest) := by
  rw [ht, run_cons_of_ok h]

theorem run_punctuation {p : Char × Token} (hp : p ∈ punctuation) {s next : State}
    (rest : Text) (offset size : ℕ) (h : step s ⟨p.2, offset⟩ = .ok next) :
    run size s (tokensFrom offset (CodePoint.ofChar p.1 :: rest)) =
      run size next (tokensFrom (offset + 1) rest) :=
  run_of_lexes (lexes_punctuation hp rest) offset size h

/-- Reading the form of a value leads to the state after that value, wherever it is expected and
`room` more containers may be open. -/
def ReadsBack (room : ℕ) (v : Value) : Prop :=
  ∀ (s : State) (stack : List Frame) (rest : Text), ExpectsValue s stack →
    stack.length + room ≤ nestingLimit → NumberEnds rest → ∀ offset size,
      run size s (tokensFrom offset (v.write compact ++ rest)) =
        run size (.after stack v) (tokensFrom (offset + (v.write compact).length) rest)

/-- A value that is written as one scalar token is read back. -/
theorem readsBack_of_lexes {room : ℕ} {v : Value} {k : Token} (hk : k ≠ .closeArray)
    (hread : ∀ stack offset, readValue stack ⟨k, offset⟩ = .ok (.after stack v))
    (h : ∀ {rest}, NumberEnds rest → Lexes (v.write compact) k rest) : ReadsBack room v := by
  intro s stack rest hs _ hrest offset size
  refine run_of_lexes (h hrest) offset size ?_
  rw [step_of_expectsValue hs hk]
  exact hread stack offset

/-! ## Arrays -/

theorem numberEnds_punctuation {p : Char × Token} (hp : p ∈ punctuation) (rest : Text) :
    NumberEnds (CodePoint.ofChar p.1 :: rest) := by
  rintro d ⟨⟩
  simp only [punctuation, List.mem_cons, List.not_mem_nil, or_false] at hp
  rcases hp with rfl | rfl | rfl | rfl | rfl | rfl <;> decide

theorem comma_mem : (',', .comma) ∈ punctuation := by simp [punctuation]

theorem colon_mem : (':', .colon) ∈ punctuation := by simp [punctuation]

theorem openArray_mem : ('[', .openArray) ∈ punctuation := by simp [punctuation]

theorem closeArray_mem : (']', .closeArray) ∈ punctuation := by simp [punctuation]

theorem openObject_mem : ('\x7b', .openObject) ∈ punctuation := by simp [punctuation]

theorem closeObject_mem : ('\x7d', .closeObject) ∈ punctuation := by simp [punctuation]

theorem writeItems_cons_cons (v w : Value) (items : List Value) :
    Value.writeItems compact (v :: w :: items) =
      v.write compact ++ CodePoint.ofChar ',' :: Value.writeItems compact (w :: items) := by
  rw [Value.writeItems, List.append_assoc]
  · rfl
  · simp

/-- The items of an array and its end are read. -/
theorem run_writeItems {room : ℕ} {items : List Value} (hne : items ≠ [])
    (ih : ∀ v ∈ items, ReadsBack room v) {s : State} {stack : List Frame} {reversed : List Value}
    (hs : ExpectsValue s (.array reversed :: stack))
    (hroom : stack.length + 1 + room ≤ nestingLimit) (rest : Text) (offset size : ℕ) :
    run size s (tokensFrom offset
        (Value.writeItems compact items ++ CodePoint.ofChar ']' :: rest)) =
      run size (.after stack (.array (reversed.reverse ++ items)))
        (tokensFrom (offset + (Value.writeItems compact items).length + 1) rest) := by
  induction items generalizing s reversed offset with
  | nil => exact absurd rfl hne
  | cons v items ih' =>
    have hv := fun t ht => ih v List.mem_cons_self s _ t hs hroom ht offset size
    cases items with
    | nil =>
      rw [Value.writeItems, hv _ (numberEnds_punctuation closeArray_mem rest),
        run_punctuation closeArray_mem rest _ size rfl,
        List.reverse_cons]
    | cons w items =>
      rw [writeItems_cons_cons, List.append_assoc, List.cons_append,
        hv _ (numberEnds_punctuation comma_mem _),
        run_punctuation comma_mem _ _ size rfl,
        ih' (List.cons_ne_nil _ _) (fun x hx => ih x (List.mem_cons_of_mem _ hx)) (.inl rfl),
        List.reverse_cons, List.append_assoc, List.singleton_append]
      simp only [List.length_append, List.length_cons]
      congr 3
      omega

/-! ## Objects -/

theorem writeMembers_singleton (name : Text) (v : Value) :
    Value.writeMembers compact [(name, v)] =
      compact.quote name ++ CodePoint.ofChar ':' :: v.write compact := by
  rw [Value.writeMembers, List.append_assoc]
  rfl

theorem writeMembers_cons_cons (name : Text) (v : Value) (m : Text × Value) (members : Members) :
    Value.writeMembers compact ((name, v) :: m :: members) =
      compact.quote name ++ CodePoint.ofChar ':' ::
        (v.write compact ++ CodePoint.ofChar ',' :: Value.writeMembers compact (m :: members)) := by
  rw [Value.writeMembers, List.append_assoc, List.append_assoc, List.append_assoc]
  · rfl
  · simp

/-- The name, the colon and the value of a member are read, whatever punctuation follows. -/
theorem run_member {room : ℕ} {name : Text} {v : Value} (ih : ReadsBack room v) {s : State}
    {stack : List Frame} {before : Members} (hs : ExpectsName s stack before)
    (hroom : stack.length + 1 + room ≤ nestingLimit) {p : Char × Token} (hp : p ∈ punctuation)
    (rest : Text) (offset size : ℕ) :
    run size s (tokensFrom offset (compact.quote name ++ CodePoint.ofChar ':' ::
        (v.write compact ++ CodePoint.ofChar p.1 :: rest))) =
      run size (.after (.object before name :: stack) v)
        (tokensFrom (offset + (compact.quote name).length + 1 + (v.write compact).length)
          (CodePoint.ofChar p.1 :: rest)) := by
  have hname : step s ⟨.text name, offset⟩ = .ok (.colon stack before name) := by
    rw [step_of_expectsName hs (by simp)]
    rfl
  rw [run_of_lexes (lexes_quote name _) offset size hname,
    run_punctuation colon_mem _ _ size rfl,
    ih _ (.object before name :: stack) _ (.inl rfl) hroom (numberEnds_punctuation hp rest)]

/-- The members of an object and its end are read, when no name occurs twice. -/
theorem run_writeMembers {room : ℕ} {members : Members} (hne : members ≠ [])
    (ih : ∀ m ∈ members, ReadsBack room m.2) {s : State} {stack : List Frame} (before : Members)
    (hnames : ((before ++ members).map Prod.fst).Nodup)
    (hs : ExpectsName s stack before) (hroom : stack.length + 1 + room ≤ nestingLimit)
    (rest : Text) (offset size : ℕ) :
    run size s (tokensFrom offset
        (Value.writeMembers compact members ++ CodePoint.ofChar '\x7d' :: rest)) =
      run size (.after stack (.object (before ++ members)))
        (tokensFrom (offset + (Value.writeMembers compact members).length + 1) rest) := by
  induction members generalizing s before offset with
  | nil => exact absurd rfl hne
  | cons m members ih' =>
    obtain ⟨name, v⟩ := m
    have hfresh : name ∉ before.map Prod.fst := by
      rw [List.map_append, List.nodup_append] at hnames
      intro hmem
      exact hnames.2.2 name hmem name List.mem_cons_self rfl
    have hput := Members.put_of_notMem v hfresh
    have hv := ih _ List.mem_cons_self
    cases members with
    | nil =>
      have hclose : ∀ offset,
          step (.after (.object before name :: stack) v) ⟨.closeObject, offset⟩ =
            .ok (.after stack (.object (before ++ [(name, v)]))) := by
        intro offset
        rw [← hput]
        rfl
      rw [writeMembers_singleton, List.append_assoc, List.cons_append,
        run_member hv hs hroom closeObject_mem,
        run_punctuation closeObject_mem _ _ size (hclose _)]
      simp only [List.length_append, List.length_cons, Nat.add_assoc, Nat.add_comm 1]
    | cons m members =>
      have hcomma : ∀ offset, step (.after (.object before name :: stack) v) ⟨.comma, offset⟩ =
          .ok (.name stack (before ++ [(name, v)])) := by
        intro offset
        rw [← hput]
        rfl
      rw [writeMembers_cons_cons, List.append_assoc, List.cons_append, List.append_assoc,
        List.cons_append, run_member hv hs hroom comma_mem,
        run_punctuation comma_mem _ _ size (hcomma _),
        ih' (List.cons_ne_nil _ _) (fun x hx => ih x (List.mem_cons_of_mem _ hx)) _
          (by rwa [List.append_assoc]) (.inl rfl),
        List.append_assoc, List.singleton_append]
      simp only [List.length_append, List.length_cons]
      congr 3
      omega

/-! ## Values -/

/-- A container is read when its inside and its end are, after its opening. -/
theorem run_enclosed {v : Value} {inner : Text} {first last : Char} {k : Token}
    (hk : (first, k) ∈ punctuation)
    (hwrite : v.write compact = CodePoint.ofChar first :: (inner ++ [CodePoint.ofChar last]))
    {s next : State} (hopen : ∀ offset, step s ⟨k, offset⟩ = .ok next) {stack : List Frame}
    {rest : Text} {size : ℕ}
    (hinner : ∀ offset, run size next (tokensFrom offset (inner ++ CodePoint.ofChar last :: rest)) =
      run size (.after stack v) (tokensFrom (offset + inner.length + 1) rest)) (offset : ℕ) :
    run size s (tokensFrom offset (v.write compact ++ rest)) =
      run size (.after stack v) (tokensFrom (offset + (v.write compact).length) rest) := by
  rw [hwrite, List.cons_append, List.append_assoc, List.singleton_append,
    run_punctuation hk _ offset size (hopen offset), hinner]
  simp only [List.length_cons, List.length_append, List.length_nil]
  congr 2
  omega

/-- A container is opened where there is room for it. -/
theorem opening_eq {room : ℕ} {stack : List Frame}
    (hroom : stack.length + (room + 1) ≤ nestingLimit) (container : Container) (next : State) :
    opening stack container next = .ok next :=
  if_pos (by omega)

theorem readsBack_array {room : ℕ} {items : List Value} (ih : ∀ v ∈ items, ReadsBack room v) :
    ReadsBack (room + 1) (.array items) := by
  intro s stack rest hs hroom hrest offset size
  have hopen : ∀ offset, step s ⟨.openArray, offset⟩ = .ok (.itemOrEnd stack) := by
    intro offset
    rw [step_of_expectsValue hs (by simp)]
    exact opening_eq hroom _ _
  have hwrite : (Value.array items).write compact = CodePoint.ofChar '[' ::
      (Value.writeItems compact items ++ [CodePoint.ofChar ']']) := by
    rw [Value.write, List.append_assoc]
    rfl
  refine run_enclosed openArray_mem hwrite hopen (fun offset => ?_) offset
  by_cases hitems : items = []
  · subst hitems
    rw [Value.writeItems, List.nil_append,
      run_punctuation closeArray_mem rest _ size rfl]
    rfl
  · exact run_writeItems hitems ih (.inr ⟨stack, rfl, rfl⟩) (by omega) rest offset size

theorem readsBack_object {room : ℕ} {members : Members} (names : (members.map Prod.fst).Nodup)
    (ih : ∀ m ∈ members, ReadsBack room m.2) : ReadsBack (room + 1) (.object members) := by
  intro s stack rest hs hroom hrest offset size
  have hopen : ∀ offset, step s ⟨.openObject, offset⟩ = .ok (.nameOrEnd stack) := by
    intro offset
    rw [step_of_expectsValue hs (by simp)]
    exact opening_eq hroom _ _
  have hwrite : (Value.object members).write compact = CodePoint.ofChar '\x7b' ::
      (Value.writeMembers compact members ++ [CodePoint.ofChar '\x7d']) := by
    rw [Value.write, List.append_assoc]
    rfl
  refine run_enclosed openObject_mem hwrite hopen (fun offset => ?_) offset
  by_cases hmembers : members = []
  · subst hmembers
    rw [Value.writeMembers, List.nil_append,
      run_punctuation closeObject_mem rest _ size rfl]
    rfl
  · exact run_writeMembers hmembers ih [] names (.inr ⟨rfl, rfl⟩) (by omega) rest offset size

/-- **A readable value is read back** where there is room for its containers. -/
theorem readsBack_of_readable {room : ℕ} {v : Value} (hv : v.Readable room) : ReadsBack room v := by
  induction hv with
  | null =>
    refine readsBack_of_lexes (k := .scalar .null) (by simp) (fun _ _ => rfl) fun {rest} _ => ?_
    rw [Value.write]
    exact lexes_null rest
  | bool b =>
    refine readsBack_of_lexes (k := .scalar (.bool b)) (by simp) (fun _ _ => rfl) fun {rest} _ => ?_
    rw [Value.write]
    exact lexes_bool b rest
  | text t =>
    refine readsBack_of_lexes (k := .text t) (by simp) (fun _ _ => rfl) fun {rest} _ => ?_
    rw [Value.write]
    exact lexes_quote t rest
  | @int _ n hn =>
    refine readsBack_of_lexes (k := .scalar (.int n)) (by simp) (fun _ _ => rfl) fun hrest => ?_
    rw [Value.write]
    exact lexes_ofInt hn hrest
  | @float _ x hx =>
    refine readsBack_of_lexes (k := .scalar (.float x)) (by simp) (fun _ _ => rfl) fun hrest => ?_
    rw [Value.write, floatText_of_isFinite hx]
    exact lexes_text hx hrest
  | array _ ih => exact readsBack_array ih
  | object names _ ih => exact readsBack_object names ih

end Reader

/-- **The text of a readable value has that value.** -/
theorem ofDecoded_write {v : Value} (hv : v.Readable nestingLimit) :
    ofDecoded (v.write compact) = .ok v := by
  have h := Reader.readsBack_of_readable hv (.value []) [] [] (.inl rfl) (by simp)
    Token.numberEnds_nil 0 (v.write compact).length
  rw [List.append_nil] at h
  rw [ofDecoded, tokens, h, tokensFrom]
  rfl

end Abacus.Json
