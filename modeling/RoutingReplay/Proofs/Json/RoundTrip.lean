/-
Values read back from their JSON text.

The text of a value takes the reader's machine from where a value has to come to where it is complete, whatever lists
and records are open around it and whatever follows (`takes_write`). The induction is on the value; a list or a record
goes on item by item, the frame on the stack holding those that are done in reverse. So a value comes back from its text
(`read?_write`), provided that it has an exact one: `IsExact` leaves out numbers that are not whole or too large.
-/
import RoutingReplay.Proofs.Json.Token

namespace RoutingReplay

/-- What is written item by item is read item by item. -/
theorem mapM_map_eq_some {α β γ : Type} {write : α → β} {read : β → Option γ} {g : α → γ} {xs : List α}
    (h : ∀ x ∈ xs, read (write x) = some (g x)) : (xs.map write).mapM read = some (xs.map g) := by
  induction xs with
  | nil => rfl
  | cons x rest ih =>
    rw [List.map_cons, List.mapM_cons, h x List.mem_cons_self, ih fun y hy => h y (List.mem_cons_of_mem _ hy)]
    rfl

namespace Json

/-- a value whose text stands for it alone: its numbers are whole and fit into 64 bits -/
inductive IsExact : Value → Prop where
  | null : IsExact .null
  | bool (b : Bool) : IsExact (.bool b)
  | int {n : Int} (hlow : -0x8000000000000000 ≤ n) (hhigh : n < 0x10000000000000000) : IsExact (.int n)
  | text (s : String) : IsExact (.text s)
  | list {items : List Value} (h : ∀ v ∈ items, IsExact v) : IsExact (.list items)
  | record {fields : List (String × Value)} (h : ∀ f ∈ fields, IsExact f.2) : IsExact (.record fields)

/-! ## Texts as moves of the machine -/

/-- where the machine gets from a state on a text -/
def readFrom? (fuel : Nat) (s : State) (cs : List Char) : Option State := (tokensWithin? fuel cs).bind (run? s)

/-- a text takes the machine from one state to another, with one token a character at most; what follows may be
anything but more of a number -/
def Takes (cs : List Char) (s s' : State) : Prop :=
  ∃ count ≤ cs.length, ∀ fuel rest, EndsNumber rest →
    readFrom? (fuel + count) s (cs ++ rest) = readFrom? fuel s' rest

variable {cs cs' : List Char} {s s' s'' : State} {t : Token} {c : Char}

theorem Takes.nil (s : State) : Takes [] s s := ⟨0, Nat.le_refl 0, fun _ _ _ => rfl⟩

theorem Takes.append (h : Takes cs s s') (h' : Takes cs' s' s'') (hends : ∀ rest, EndsNumber (cs' ++ rest)) :
    Takes (cs ++ cs') s s'' := by
  obtain ⟨count, hcount, htakes⟩ := h
  obtain ⟨count', hcount', htakes'⟩ := h'
  refine ⟨count' + count, by rw [List.length_append]; omega, fun fuel rest hrest => ?_⟩
  rw [List.append_assoc, ← Nat.add_assoc, htakes _ _ (hends rest), htakes' fuel rest hrest]

/-- one token -/
theorem readFrom?_token (hspace : isSpace c = false) {rest rest' : List Char}
    (hread : readToken? (c :: rest) = some (t, rest')) (hstep : step? s t = some s') (fuel : Nat) :
    readFrom? (fuel + 1) s (c :: rest) = readFrom? fuel s' rest' := by
  simp only [readFrom?, tokensWithin?, hspace, hread, Bool.false_eq_true, if_false]
  cases tokensWithin? fuel rest' with
  | none => rfl
  | some ts => simp only [Option.map_some, Option.bind_some, run?, hstep]

theorem Takes.token (hspace : isSpace c = false)
    (hread : ∀ rest, EndsNumber rest → readToken? (c :: cs ++ rest) = some (t, rest)) (hstep : step? s t = some s') :
    Takes (c :: cs) s s' :=
  ⟨1, by simp, fun fuel rest hrest => readFrom?_token hspace (hread rest hrest) hstep fuel⟩

/-- one character that is a token by itself, and more text behind it -/
theorem Takes.mark (hspace : isSpace c = false) (hread : ∀ rest, readToken? (c :: rest) = some (t, rest))
    (hstep : step? s t = some s') (h : Takes cs s' s'') : Takes (c :: cs) s s'' := by
  obtain ⟨count, hcount, htakes⟩ := h
  refine ⟨count + 1, by rw [List.length_cons]; omega, fun fuel rest hrest => ?_⟩
  rw [List.cons_append, ← Nat.add_assoc, readFrom?_token hspace (hread _) hstep, htakes fuel rest hrest]

theorem endsNumber_cons (hc : c.isDigit = false ∧ c ≠ '.' ∧ c ≠ 'e' ∧ c ≠ 'E') (rest : List Char) :
    EndsNumber (c :: rest) := by
  intro d hd
  obtain rfl := Option.some.inj hd
  exact hc

theorem takes_writeText (text : String) (hstep : step? s (.text (some text)) = some s') : Takes (writeText text) s s' :=
  Takes.token rfl (fun rest _ => readToken?_writeText text rest) hstep

theorem takes_writeInt {n : Int} (hlow : -0x8000000000000000 ≤ n) (hhigh : n < 0x10000000000000000)
    (hstep : step? s (.plain (.int n)) = some s') : Takes (writeInt n) s s' := by
  obtain ⟨c, rest, htext, hc⟩ := exists_writeInt_cons n
  have hspace : isSpace c = false := by
    rcases hc with rfl | hdigit
    · rfl
    · by_contra hspace
      simp only [isSpace, Bool.not_eq_false, Bool.or_eq_true, decide_eq_true_eq] at hspace
      rcases hspace with ((rfl | rfl) | rfl) | rfl <;> cases hdigit
  rw [htext]
  refine Takes.token hspace (fun rest hrest => ?_) hstep
  rw [← htext]
  exact readToken?_writeInt hlow hhigh hrest

/-! ## Lists and records -/

/-- the machine gets from where a value has to come to where it is complete -/
def Spells (v : Value) : Prop :=
  ∀ opened stack, Takes (write v) (.value opened stack) (.complete v stack)

theorem endsNumber_writeItems (items : List Value) (rest : List Char) : EndsNumber (writeItems items ++ rest) := by
  cases items <;> exact endsNumber_cons (by decide) _

/-- The items behind the first and the end of the list complete the list. -/
theorem takes_writeItems {items : List Value} (h : ∀ v ∈ items, Spells v) (item : Value) (done : List Value)
    (stack : List Frame) :
    Takes (writeItems items) (.complete item (.list done :: stack))
      (.complete (.list (done.reverse ++ item :: items)) stack) := by
  induction items generalizing item done with
  | nil =>
    refine Takes.mark (by decide) (fun _ => rfl) rfl ?_
    rw [List.reverse_cons]
    exact Takes.nil _
  | cons next others ih =>
    refine Takes.mark (by decide) (fun _ => rfl) rfl ?_
    have hnext := h next List.mem_cons_self false (.list (item :: done) :: stack)
    have hothers := ih (fun v hv => h v (List.mem_cons_of_mem _ hv)) next (item :: done)
    rw [List.reverse_cons, List.append_assoc] at hothers
    exact hnext.append hothers fun rest => endsNumber_writeItems others rest

theorem spells_list {items : List Value} (h : ∀ v ∈ items, Spells v) : Spells (.list items) := by
  intro opened stack
  cases items with
  | nil => exact Takes.mark (by decide) (fun _ => rfl) rfl (Takes.mark (by decide) (fun _ => rfl) rfl (Takes.nil _))
  | cons item rest =>
    refine Takes.mark (by decide) (fun _ => rfl) rfl ?_
    have hitem := h item List.mem_cons_self true (.list [] :: stack)
    have hrest := takes_writeItems (fun v hv => h v (List.mem_cons_of_mem _ hv)) item [] stack
    exact hitem.append hrest fun _ => endsNumber_writeItems rest _

/-- fields whose names are texts -/
def named (fields : List (String × Value)) : Fields := fields.map fun f => (some f.1, f.2)

theorem recordOf_named (fields : List (String × Value)) : recordOf (named fields) = .record fields.reverse := by
  have hreverse : (named fields).reverse = named fields.reverse := List.map_reverse.symm
  have hread : (named fields.reverse).mapM (fun f => f.1.map fun s => (s, f.2)) = some (fields.reverse.map id) :=
    mapM_map_eq_some fun _ _ => rfl
  rw [List.map_id] at hread
  rw [recordOf, hreverse]
  split
  · rename_i fields' heq
    rw [← Option.some.inj (heq.symm.trans hread)]
  · rename_i heq
    cases heq.symm.trans hread

theorem endsNumber_writeFields (fields : List (String × Value)) (rest : List Char) :
    EndsNumber (writeFields fields ++ rest) := by
  cases fields <;> exact endsNumber_cons (by decide) _

/-- The name and the value of a field, and then the rest of its record. -/
theorem takes_field {name : String} {v : Value} (h : Spells v) {fields : List (String × Value)} {opened : Bool}
    {done : Fields} {stack : List Frame} {s' : State}
    (hrest : Takes (writeFields fields) (.complete v (.record done (some name) :: stack)) s') :
    Takes (writeText name ++ ':' :: write v ++ writeFields fields) (.name opened done stack) s' := by
  have hname : Takes (writeText name) (.name opened done stack) (.colon done (some name) stack) :=
    takes_writeText name (by cases opened <;> rfl)
  have hvalue := (h false (.record done (some name) :: stack)).append hrest fun _ => endsNumber_writeFields fields _
  rw [List.append_assoc, List.cons_append]
  refine hname.append (Takes.mark (by decide) (fun _ => rfl) rfl hvalue) fun _ => ?_
  exact endsNumber_cons (by decide) _

/-- The fields behind the first and the end of the record complete the record. -/
theorem takes_writeFields {fields : List (String × Value)} (h : ∀ f ∈ fields, Spells f.2) (name : String) (v : Value)
    (done : List (String × Value)) (stack : List Frame) :
    Takes (writeFields fields) (.complete v (.record (named done) (some name) :: stack))
      (.complete (.record (done.reverse ++ (name, v) :: fields)) stack) := by
  induction fields generalizing name v done with
  | nil =>
    have hrecord := recordOf_named ((name, v) :: done)
    rw [List.reverse_cons] at hrecord
    refine Takes.mark (by decide) (fun _ => rfl) ?_ (Takes.nil _)
    rw [← hrecord]
    rfl
  | cons next others ih =>
    have hothers := ih (fun f hf => h f (List.mem_cons_of_mem _ hf)) next.1 next.2 ((name, v) :: done)
    rw [List.reverse_cons, List.append_assoc] at hothers
    exact Takes.mark (by decide) (fun _ => rfl) rfl (takes_field (h next List.mem_cons_self) hothers)

theorem spells_record {fields : List (String × Value)} (h : ∀ f ∈ fields, Spells f.2) : Spells (.record fields) := by
  intro opened stack
  cases fields with
  | nil => exact Takes.mark (by decide) (fun _ => rfl) rfl (Takes.mark (by decide) (fun _ => rfl) rfl (Takes.nil _))
  | cons field rest =>
    have hrest := takes_writeFields (fun f hf => h f (List.mem_cons_of_mem _ hf)) field.1 field.2 [] stack
    exact Takes.mark (by decide) (fun _ => rfl) rfl (takes_field (h field List.mem_cons_self) hrest)

/-! ## Values -/

/-- Every exact value is spelled out by its text. -/
theorem IsExact.spells {v : Value} (h : IsExact v) : Spells v := by
  induction h with
  | null => exact fun _ _ => Takes.token (by decide) (fun _ _ => rfl) rfl
  | bool b => cases b <;> exact fun _ _ => Takes.token (by decide) (fun _ _ => rfl) rfl
  | int hlow hhigh => exact fun _ _ => takes_writeInt hlow hhigh rfl
  | text s => exact fun _ _ => takes_writeText s rfl
  | list _ ih => exact spells_list ih
  | record _ ih => exact spells_record ih

/-- An exact value comes back from its text. -/
theorem IsExact.read?_write {v : Value} (h : IsExact v) : read? (write v) = some v := by
  obtain ⟨count, hcount, htakes⟩ := h.spells false []
  have hends : EndsNumber [] := fun c hc => by cases hc
  have hrun := htakes ((write v).length - count) [] hends
  rw [Nat.sub_add_cancel hcount, List.append_nil] at hrun
  have hstop : readFrom? ((write v).length - count) (.complete v []) [] = some (.complete v []) := by
    rw [readFrom?, tokensWithin?]
    rfl
  rw [hstop] at hrun
  rw [read?, tokens?]
  rw [readFrom?] at hrun
  rw [hrun]

/-! ## Line ends -/

/-- a text without control characters, line ends among them -/
def IsPrinted (cs : List Char) : Prop := ∀ c ∈ cs, 0x20 ≤ c.toNat

instance (cs : List Char) : Decidable (IsPrinted cs) := List.decidableBAll _ cs

theorem IsPrinted.append (h : IsPrinted cs) (h' : IsPrinted cs') : IsPrinted (cs ++ cs') := fun c hc =>
  (List.mem_append.mp hc).elim (h c) (h' c)

theorem IsPrinted.cons (hc : 0x20 ≤ c.toNat) (h : IsPrinted cs) : IsPrinted (c :: cs) :=
  List.forall_mem_cons.mpr ⟨hc, h⟩

theorem isPrinted_writeChar (c : Char) : IsPrinted (writeChar c) := by
  unfold writeChar
  split
  case h_8 =>
    split
    · rename_i hcontrol
      have hall : ∀ n < 32, IsPrinted ('\\' :: 'u' :: '0' :: '0' ::
          (List.replicate (2 - (Text.writeHex n).length) '0' ++ Text.writeHex n)) := by decide
      exact hall c.toNat hcontrol
    · rename_i hplain
      exact .cons (Nat.le_of_not_lt hplain) (by decide)
  all_goals decide

theorem isPrinted_writeText (text : String) : IsPrinted (writeText text) := by
  have htext : IsPrinted (text.toList.flatMap writeChar) := by
    intro c hc
    obtain ⟨d, -, hd⟩ := List.mem_flatMap.mp hc
    exact isPrinted_writeChar d c hd
  exact .append (.cons (by decide) htext) (by decide)

theorem isPrinted_writeInt (n : Int) : IsPrinted (writeInt n) := by
  refine .append (by split <;> decide) fun c hc => ?_
  have hrange := Text.toNat_of_isSome_digitValue? (Text.isSome_digitValue?_of_mem_writeDecimal hc)
  omega

theorem isPrinted_writeItems {items : List Value} (h : ∀ v ∈ items, IsPrinted (write v)) :
    IsPrinted (writeItems items) := by
  induction items with
  | nil => decide
  | cons next others ih =>
    obtain ⟨hnext, hothers⟩ := List.forall_mem_cons.mp h
    exact .append (.cons (by decide) hnext) (ih hothers)

theorem isPrinted_writeFields {fields : List (String × Value)} (h : ∀ f ∈ fields, IsPrinted (write f.2)) :
    IsPrinted (writeFields fields) := by
  induction fields with
  | nil => decide
  | cons next others ih =>
    obtain ⟨hnext, hothers⟩ := List.forall_mem_cons.mp h
    exact .append (.append (.cons (by decide) (isPrinted_writeText next.1)) (.cons (by decide) hnext)) (ih hothers)

/-- The text of an exact value stays in one line. -/
theorem IsExact.isPrinted {v : Value} (h : IsExact v) : IsPrinted (write v) := by
  induction h with
  | null => decide
  | bool b => cases b <;> decide
  | int hlow hhigh => exact isPrinted_writeInt _
  | text s => exact isPrinted_writeText s
  | @list items _ ih =>
    cases items with
    | nil => decide
    | cons item rest =>
      -- A list is its items with the first comma turned into the opening bracket, and so is a record.
      exact .cons (by decide) (List.forall_mem_cons.mp (isPrinted_writeItems ih)).2
  | @record fields _ ih =>
    cases fields with
    | nil => decide
    | cons field rest => exact .cons (by decide) (List.forall_mem_cons.mp (isPrinted_writeFields ih)).2

end Json

end RoutingReplay
