import DecisionBoard.Proofs.Entries
import DecisionBoard.Proofs.Json.Scalars

/-!
# JSON values are read back from their text

A value is read back from its text in any style that puts nothing but white space between tokens,
the texts on one line and over several lines among them. What a text cannot hold is left out: an
object with a field twice, and an integer with more digits than are read.
-/

namespace DecisionBoard

namespace Json

/-! ## Induction over values -/

/-- What holds of a list or an object when it holds of all that is in it holds of every value. -/
theorem induct {P : Json → Prop} (null : P null) (bool : ∀ b, P (bool b)) (int : ∀ n, P (int n))
    (float : ∀ x, P (float x)) (str : ∀ s, P (str s))
    (arr : ∀ xs, (∀ v ∈ xs, P v) → P (arr xs))
    (obj : ∀ fs : Fields, (∀ f ∈ fs, P f.2) → P (obj fs)) (v : Json) : P v := by
  refine @Json.rec P (fun xs => ∀ v ∈ xs, P v) (fun fs => ∀ f ∈ fs, P f.2) (fun f => P f.2)
    null bool int float str arr obj ?_ ?_ ?_ ?_ ?_ v
  · exact fun v hv => nomatch hv
  · intro x xs hx hxs v hv
    rcases List.mem_cons.mp hv with rfl | hv
    · exact hx
    · exact hxs v hv
  · exact fun f hf => nomatch hf
  · intro f fs hf hfs g hg
    rcases List.mem_cons.mp hg with rfl | hg
    · exact hf
    · exact hfs g hg
  · exact fun k v hv => hv

theorem depthList_le {xs : List Json} {d : Nat} :
    depthList xs ≤ d ↔ ∀ v ∈ xs, depth v ≤ d := by
  induction xs with
  | nil => simp [depthList]
  | cons x xs ih => simp [depthList, ih]

theorem depthFields_le {fs : Fields} {d : Nat} :
    depthFields fs ≤ d ↔ ∀ f ∈ fs, depth f.2 ≤ d := by
  induction fs with
  | nil => simp [depthFields]
  | cons f fs ih => simp [depthFields, ih]

/-! ## What a text can hold -/

mutual

/-- Whether a value can be read back from its text: no object has a field twice, and no integer
has too many digits. -/
def isPortable : Json → Bool
  | int n => (Nat.toDigits 10 n.natAbs).length ≤ Numeral.digitLimit
  | arr xs => arePortable xs
  | obj fs => fieldsPortable fs && (fs.map (·.1)).Nodup
  | _ => true

def arePortable : List Json → Bool
  | [] => true
  | x :: xs => isPortable x && arePortable xs

def fieldsPortable : List (String × Json) → Bool
  | [] => true
  | (_, v) :: fs => isPortable v && fieldsPortable fs

end

theorem arePortable_iff {xs : List Json} : arePortable xs = true ↔ ∀ v ∈ xs, v.isPortable = true := by
  induction xs with
  | nil => simp [arePortable]
  | cons x xs ih => simp [arePortable, ih]

theorem fieldsPortable_iff {fs : Fields} :
    fieldsPortable fs = true ↔ ∀ f ∈ fs, f.2.isPortable = true := by
  induction fs with
  | nil => simp [fieldsPortable]
  | cons f fs ih => simp [fieldsPortable, ih]

theorem isPortable_arr {xs : List Json} :
    (arr xs).isPortable = true ↔ ∀ v ∈ xs, v.isPortable = true := by
  rw [isPortable, arePortable_iff]

theorem isPortable_obj {fs : Fields} :
    (obj fs).isPortable = true ↔
      (∀ f ∈ fs, f.2.isPortable = true) ∧ (fs.map (·.1)).Nodup := by
  rw [isPortable, Bool.and_eq_true, fieldsPortable_iff, decide_eq_true_iff]

/-! ## White space -/

/-- Nothing but white space between tokens. -/
def IsGap (gap : List Char) : Prop := ∀ c ∈ gap, isSpacing c = true

theorem isGap_nil : IsGap [] := fun _ hc => nomatch hc

/-- White space is skipped up to the first other character. -/
theorem skipSpacing_append {gap : List Char} {c : Char} (hgap : IsGap gap)
    (hc : isSpacing c = false) (cs : List Char) (offset : Nat) :
    ∃ offset', Cursor.skipSpacing ⟨gap ++ c :: cs, offset⟩ = ⟨c :: cs, offset'⟩ := by
  have hdrop : (gap ++ c :: cs).dropWhile isSpacing = c :: cs := by
    rw [List.dropWhile_append_of_pos hgap, List.dropWhile_cons, hc]
    rfl
  refine ⟨offset + ((gap ++ c :: cs).takeWhile isSpacing).length, ?_⟩
  rw [Cursor.skipSpacing]
  dsimp only
  rw [hdrop]

theorem skipSpacing_cons {c : Char} (hc : isSpacing c = false) (cs : List Char) (offset : Nat) :
    Cursor.skipSpacing ⟨c :: cs, offset⟩ = ⟨c :: cs, offset⟩ := by
  rw [Cursor.skipSpacing]
  dsimp only
  rw [List.dropWhile_cons, List.takeWhile_cons, hc]
  rfl

/-- What a style puts between tokens is white space. -/
structure Style.Spaced (style : Style) : Prop where
  breaks : ∀ depth, IsGap (style.breakAt depth)
  comma : style.comma = [',']
  colon : ∃ gap, IsGap gap ∧ style.colon = ':' :: gap

theorem Style.spaced_compact : Style.compact.Spaced where
  breaks := fun _ => isGap_nil
  comma := rfl
  colon := ⟨[], isGap_nil, rfl⟩

theorem Style.spaced_indented : Style.indented.Spaced where
  breaks := by
    intro depth c hc
    rcases List.mem_cons.mp hc with rfl | hc
    · rfl
    · rw [List.eq_of_mem_replicate hc]
      rfl
  comma := rfl
  colon := by
    refine ⟨[' '], ?_, rfl⟩
    intro c hc
    rw [List.mem_singleton.mp hc]
    rfl

/-! ## Where a value begins -/

/-- The characters that a word or a number begins with. -/
def opensScalar (c : Char) : Bool := c.isDigit || ['-', 'n', 't', 'f', 'N', 'I'].contains c

/-- The characters that a value begins with. -/
def opensValue (c : Char) : Bool := opensScalar c || ['"', '[', '{'].contains c

theorem opensValue_of_scalar {c : Char} (h : opensScalar c = true) : opensValue c = true := by
  rw [opensValue, h, Bool.true_or]

theorem ne_of_opensValue {c d : Char} (hc : opensValue c = true) (hd : opensValue d = false) :
    c ≠ d := by
  rintro rfl
  rw [hc] at hd
  cases hd

theorem ne_of_opensScalar {c d : Char} (hc : opensScalar c = true) (hd : opensScalar d = false) :
    c ≠ d := by
  rintro rfl
  rw [hc] at hd
  cases hd

theorem isSpacing_of_opensValue {c : Char} (hc : opensValue c = true) : isSpacing c = false := by
  have hspace : c ≠ ' ' := ne_of_opensValue hc rfl
  have htab : c ≠ '\t' := ne_of_opensValue hc rfl
  have hfeed : c ≠ '\n' := ne_of_opensValue hc rfl
  have hreturn : c ≠ '\r' := ne_of_opensValue hc rfl
  simp [isSpacing, hspace, htab, hfeed, hreturn]

/-- A text that begins with a character of some kind. -/
def Begins (p : Char → Bool) (cs : List Char) : Prop := ∃ c cs', cs = c :: cs' ∧ p c = true

theorem begins_number (negative : Bool) {ds : List Char} (hds : Numeral.IsWhole ds)
    (rest : List Char) : Begins opensScalar ((Double.signText negative).toList ++ (ds ++ rest)) := by
  cases negative with
  | true => exact ⟨'-', ds ++ rest, rfl, rfl⟩
  | false =>
    cases hcs : ds with
    | nil => exact (hds.ne_nil hcs).elim
    | cons d es =>
      have hd : d.isDigit = true := hds.digits d (by rw [hcs]; exact List.mem_cons_self)
      exact ⟨d, es ++ rest, rfl, by rw [opensScalar, hd, Bool.true_or]⟩

theorem begins_int (n : Int) : Begins opensScalar (toString n).toList := by
  have hbegins := begins_number (n < 0) (Numeral.isWhole_toDigits n.natAbs) []
  rw [List.append_nil, ← toList_toString_int] at hbegins
  exact hbegins

theorem begins_double (x : Double) : Begins opensScalar (writeDouble x) := by
  cases x with
  | nan => exact ⟨'N', _, rfl, rfl⟩
  | infinite negative =>
    cases negative with
    | true => exact ⟨'-', _, rfl, rfl⟩
    | false => exact ⟨'I', _, rfl, rfl⟩
  | finite negative units hfits =>
    obtain ⟨s, hproper, htext, -⟩ := Double.toText_spelled negative hfits
    have hword : writeDouble (.finite negative units hfits)
        = (Double.finite negative units hfits).toText.toList := rfl
    rw [hword, htext]
    exact begins_number negative hproper.whole _

/-! ## What follows a value in a list or an object -/

/-- A comma or a closing bracket, behind white space, does not go on with a number. -/
theorem endsValue_gap {gap : List Char} {c : Char} (hgap : IsGap gap)
    (hc : c.isDigit = false ∧ c ≠ '.' ∧ c ≠ 'e' ∧ c ≠ 'E') (cs : List Char) :
    EndsValue (gap ++ c :: cs) := by
  cases gap with
  | nil => exact endsValue_cons hc cs
  | cons d ds =>
    have hd : isSpacing d = true := hgap d List.mem_cons_self
    refine endsValue_cons ?_ _
    simp only [isSpacing, Bool.or_eq_true, beq_iff_eq] at hd
    rcases hd with ((rfl | rfl) | rfl) | rfl <;> decide

/-! ## Values -/

variable {style : Style}

/-- A value is read back from its text, given room and fuel. -/
def ReadsBack (style : Style) (v : Json) : Prop :=
  ∀ depth fuel room offset rest, v.depth ≤ room → 2 * (writeAt style depth v).length < fuel →
    EndsValue rest → Reads (scanValue fuel room ⟨writeAt style depth v ++ rest, offset⟩) v rest

/-- What begins like a word or a number is scanned as one. -/
theorem scanValue_scalar {cs : List Char} (h : Begins opensScalar cs) (fuel room offset : Nat) :
    scanValue (fuel + 1) room ⟨cs, offset⟩ = scanScalar ⟨cs, offset⟩ := by
  obtain ⟨c, cs', rfl, hc⟩ := h
  have hquote : c ≠ '"' := ne_of_opensScalar hc rfl
  have hbracket : c ≠ '[' := ne_of_opensScalar hc rfl
  have hbrace : c ≠ '{' := ne_of_opensScalar hc rfl
  rw [scanValue]
  dsimp only
  split
  · rename_i heq
    exact absurd (List.cons.inj heq).1 hquote
  · rename_i heq
    exact absurd (List.cons.inj heq).1 hbracket
  · rename_i heq
    exact absurd (List.cons.inj heq).1 hbrace
  · rfl

theorem Begins.append {p : Char → Bool} {cs : List Char} (h : Begins p cs) (rest : List Char) :
    Begins p (cs ++ rest) := by
  obtain ⟨c, cs', rfl, hc⟩ := h
  exact ⟨c, cs' ++ rest, rfl, hc⟩

/-- A word or a number is read back when it is scanned back. -/
theorem readsBack_scalar {v : Json} (text : List Char) (htext : ∀ depth, writeAt style depth v = text)
    (hbegins : Begins opensScalar text)
    (hreads : ∀ offset rest, EndsValue rest → Reads (scanScalar ⟨text ++ rest, offset⟩) v rest) :
    ReadsBack style v := by
  intro depth fuel room offset rest _ hfuel hrest
  obtain ⟨fuel, rfl⟩ : ∃ n, fuel = n + 1 := ⟨fuel - 1, by omega⟩
  rw [htext, scanValue_scalar (hbegins.append rest)]
  exact hreads offset rest hrest

theorem readsBack_str (s : String) : ReadsBack style (str s) := by
  intro depth fuel room offset rest _ hfuel _
  obtain ⟨fuel, rfl⟩ : ∃ n, fuel = n + 1 := ⟨fuel - 1, by omega⟩
  have htext : writeAt style depth (str s) ++ rest
      = '"' :: (s.toList.flatMap stringChar ++ '"' :: rest) := by
    simp only [writeAt, writeString, List.cons_append, List.append_assoc, List.nil_append]
  rw [htext, scanValue]
  exact (reads_string offset s rest).map Json.str

/-- Every value begins with a character of its own. -/
theorem begins_writeAt (style : Style) (depth : Nat) (v : Json) : Begins opensValue (writeAt style depth v) := by
  have hscalar : ∀ {cs}, Begins opensScalar cs → Begins opensValue cs := by
    rintro cs ⟨c, cs', rfl, hc⟩
    exact ⟨c, cs', rfl, opensValue_of_scalar hc⟩
  cases v with
  | null => exact ⟨'n', _, rfl, rfl⟩
  | bool b =>
    cases b with
    | true => exact ⟨'t', _, rfl, rfl⟩
    | false => exact ⟨'f', _, rfl, rfl⟩
  | int n => exact hscalar (begins_int n)
  | float x => exact hscalar (begins_double x)
  | str s => exact ⟨'"', _, rfl, rfl⟩
  | arr xs =>
    cases xs with
    | nil => exact ⟨'[', _, rfl, rfl⟩
    | cons x xs => exact ⟨'[', _, rfl, rfl⟩
  | obj fs =>
    cases fs with
    | nil => exact ⟨'{', _, rfl, rfl⟩
    | cons f fs => exact ⟨'{', _, rfl, rfl⟩

/-- White space before a value is skipped. -/
theorem skipSpacing_writeAt (style : Style) {gap : List Char} (hgap : IsGap gap) (depth : Nat) (v : Json)
    (rest : List Char) (offset : Nat) :
    ∃ offset', Cursor.skipSpacing ⟨gap ++ (writeAt style depth v ++ rest), offset⟩
      = ⟨writeAt style depth v ++ rest, offset'⟩ := by
  obtain ⟨c, cs, htext, hc⟩ := begins_writeAt style depth v
  rw [htext, List.cons_append]
  exact skipSpacing_append hgap (isSpacing_of_opensValue hc) _ offset

/-! ## Lists -/

variable {gap : List Char}

/-- The items of a list are read back up to the closing bracket. -/
theorem reads_items (hstyle : style.Spaced) (hgap : IsGap gap) (depth : Nat) {xs : List Json}
    {x : Json} (hback : ∀ v ∈ x :: xs, ReadsBack style v) {fuel room : Nat}
    (hroom : ∀ v ∈ x :: xs, v.depth ≤ room)
    (hfuel : 2 * ((writeAt style depth x).length + (writeItems style depth xs).length) + 1 < fuel)
    (offset : Nat) (rest : List Char) :
    Reads (scanItems fuel room
      ⟨writeAt style depth x ++ (writeItems style depth xs ++ (gap ++ ']' :: rest)), offset⟩)
      (x :: xs) rest := by
  induction xs generalizing x fuel offset with
  | nil =>
    obtain ⟨fuel, rfl⟩ : ∃ n, fuel = n + 1 := ⟨fuel - 1, by omega⟩
    have hends : EndsValue (gap ++ ']' :: rest) := endsValue_gap hgap (by decide) rest
    obtain ⟨offset₁, hvalue⟩ := hback x List.mem_cons_self depth fuel room offset
      (gap ++ ']' :: rest) (hroom x List.mem_cons_self) (by omega) hends
    obtain ⟨offset₂, hskip⟩ := skipSpacing_append (c := ']') hgap rfl rest offset₁
    rw [writeItems, List.nil_append, scanItems, hvalue]
    dsimp only
    rw [hskip]
    exact ⟨_, rfl⟩
  | cons y ys ih =>
    obtain ⟨fuel, rfl⟩ : ∃ n, fuel = n + 1 := ⟨fuel - 1, by omega⟩
    have hsplit : writeItems style depth (y :: ys) ++ (gap ++ ']' :: rest)
        = ',' :: (style.breakAt depth ++ (writeAt style depth y ++
            (writeItems style depth ys ++ (gap ++ ']' :: rest)))) := by
      simp only [writeItems, hstyle.comma, List.append_assoc, List.cons_append, List.nil_append]
    have hlength : (writeItems style depth (y :: ys)).length
        = 1 + (style.breakAt depth).length + (writeAt style depth y).length
          + (writeItems style depth ys).length := by
      simp only [writeItems, hstyle.comma, List.length_append, List.length_cons, List.length_nil]
    have hends := endsValue_cons (c := ',') (by decide) (style.breakAt depth ++
      (writeAt style depth y ++ (writeItems style depth ys ++ (gap ++ ']' :: rest))))
    obtain ⟨offset₁, hvalue⟩ := hback x List.mem_cons_self depth fuel room offset _
      (hroom x List.mem_cons_self) (by omega) hends
    obtain ⟨offset₂, hskip⟩ := skipSpacing_writeAt style (hstyle.breaks depth) depth y
      (writeItems style depth ys ++ (gap ++ ']' :: rest)) (offset₁ + 1)
    have hnext : 2 * ((writeAt style depth y).length + (writeItems style depth ys).length) + 1
        < fuel := by omega
    have hitems := ih (fun v hv => hback v (List.mem_cons_of_mem x hv))
      (fun v hv => hroom v (List.mem_cons_of_mem x hv)) hnext offset₂
    rw [hsplit, scanItems, hvalue]
    dsimp only
    rw [skipSpacing_cons rfl]
    rw [← hskip] at hitems
    exact hitems.map (x :: ·)

/-- A list with an item in it is scanned by its items. -/
theorem scanValue_list {cs cs' : List Char} {c : Char} {offset offset' : Nat}
    (hskip : Cursor.skipSpacing ⟨cs, offset + 1⟩ = ⟨c :: cs', offset'⟩) (hc : c ≠ ']')
    (fuel room : Nat) :
    scanValue (fuel + 1) (room + 1) ⟨'[' :: cs, offset⟩
      = (scanItems fuel room ⟨c :: cs', offset'⟩).map fun (xs, c) => (arr xs, c) := by
  have hroom : room + 1 ≠ 0 := Nat.succ_ne_zero room
  rw [scanValue]
  simp only [hroom, if_false, hskip]
  split
  · rename_i heq
    exact absurd (List.cons.inj heq).1 hc
  · rfl

theorem readsBack_arr (hstyle : style.Spaced) {xs : List Json}
    (hback : ∀ v ∈ xs, ReadsBack style v) : ReadsBack style (arr xs) := by
  intro depth fuel room offset rest hroom hfuel _
  obtain ⟨fuel, rfl⟩ : ∃ n, fuel = n + 1 := ⟨fuel - 1, by omega⟩
  obtain ⟨room, rfl⟩ : ∃ n, room = n + 1 := ⟨room - 1, by rw [Json.depth] at hroom; omega⟩
  cases xs with
  | nil => exact ⟨_, rfl⟩
  | cons x xs =>
    have hall : ∀ v ∈ x :: xs, v.depth ≤ room := by
      rw [Json.depth] at hroom
      exact depthList_le.mp (by omega)
    have htext : writeAt style depth (arr (x :: xs)) ++ rest
        = '[' :: (style.breakAt (depth + 1) ++ (writeAt style (depth + 1) x ++
            (writeItems style (depth + 1) xs ++ (style.breakAt depth ++ ']' :: rest)))) := by
      simp only [writeAt, List.append_assoc, List.cons_append, List.nil_append]
    have hlength : (writeAt style depth (arr (x :: xs))).length
        = 2 + (style.breakAt (depth + 1)).length + (writeAt style (depth + 1) x).length
          + (writeItems style (depth + 1) xs).length + (style.breakAt depth).length := by
      simp only [writeAt, List.length_append, List.length_cons, List.length_nil]
      omega
    obtain ⟨offset₁, hskip⟩ := skipSpacing_writeAt style (hstyle.breaks (depth + 1)) (depth + 1) x
      (writeItems style (depth + 1) xs ++ (style.breakAt depth ++ ']' :: rest)) (offset + 1)
    have hitems := reads_items hstyle (hstyle.breaks depth) (depth + 1) hback hall
      (show 2 * ((writeAt style (depth + 1) x).length + (writeItems style (depth + 1) xs).length) + 1
        < fuel by omega) offset₁ rest
    obtain ⟨c, cs, hhead, hc⟩ := begins_writeAt style (depth + 1) x
    rw [hhead, List.cons_append] at hskip hitems
    rw [htext, hhead, List.cons_append, scanValue_list hskip (ne_of_opensValue hc rfl)]
    exact hitems.map arr

/-! ## Objects -/

/-- A field is scanned by its name and its value; what stands behind it decides how to go on. -/
theorem scanFields_field (hstyle : style.Spaced) {v : Json} (hback : ReadsBack style v)
    {depth fuel room : Nat} (hroom : v.depth ≤ room)
    (hfuel : 2 * (writeAt style depth v).length < fuel) (k : String) (offset : Nat)
    {rest : List Char} (hrest : EndsValue rest) :
    ∃ offset',
      (∀ rest' last, Cursor.skipSpacing ⟨rest, offset'⟩ = ⟨'}' :: rest', last⟩ →
        scanFields (fuel + 1) room
            ⟨writeString k ++ (style.colon ++ (writeAt style depth v ++ rest)), offset⟩
          = .ok ([(k, v)], ⟨rest', last + 1⟩)) ∧
      (∀ rest' last, Cursor.skipSpacing ⟨rest, offset'⟩ = ⟨',' :: rest', last⟩ →
        scanFields (fuel + 1) room
            ⟨writeString k ++ (style.colon ++ (writeAt style depth v ++ rest)), offset⟩
          = (scanFields fuel room (Cursor.skipSpacing ⟨rest', last + 1⟩)).map
              fun (fs, c) => ((k, v) :: fs, c)) := by
  obtain ⟨gap, hgap, hcolon⟩ := hstyle.colon
  have htext : writeString k ++ (style.colon ++ (writeAt style depth v ++ rest))
      = '"' :: (k.toList.flatMap stringChar ++ '"' :: (':' :: (gap ++ (writeAt style depth v ++ rest)))) := by
    simp only [writeString, hcolon, List.append_assoc, List.cons_append, List.nil_append]
  obtain ⟨offset₁, hname⟩ :=
    reads_string offset k (':' :: (gap ++ (writeAt style depth v ++ rest)))
  obtain ⟨offset₂, hskip⟩ := skipSpacing_writeAt style hgap depth v rest (offset₁ + 1)
  obtain ⟨offset₃, hvalue⟩ := hback depth fuel room offset₂ rest hroom hfuel hrest
  have hcolon' : Cursor.skipSpacing ⟨':' :: (gap ++ (writeAt style depth v ++ rest)), offset₁⟩
      = ⟨':' :: (gap ++ (writeAt style depth v ++ rest)), offset₁⟩ := skipSpacing_cons rfl _ _
  rw [htext]
  refine ⟨offset₃, ?_, ?_⟩
  · intro rest' last hlast
    rw [scanFields]
    simp only [hname, hcolon', hskip, hvalue, hlast]
  · intro rest' last hmore
    rw [scanFields]
    simp only [hname, hcolon', hskip, hvalue, hmore]

/-- The fields of an object are read back up to the closing brace. -/
theorem reads_fields (hstyle : style.Spaced) (hgap : IsGap gap) (depth : Nat) {fs : Fields}
    {k : String} {v : Json} (hback : ∀ f ∈ (k, v) :: fs, ReadsBack style f.2) {fuel room : Nat}
    (hroom : ∀ f ∈ (k, v) :: fs, f.2.depth ≤ room)
    (hfuel : 2 * ((writeAt style depth v).length + (writeFields style depth fs).length) + 1 < fuel)
    (offset : Nat) (rest : List Char) :
    Reads (scanFields fuel room
      ⟨writeString k ++ (style.colon ++ (writeAt style depth v ++
        (writeFields style depth fs ++ (gap ++ '}' :: rest)))), offset⟩) ((k, v) :: fs) rest := by
  have hvalue : ReadsBack style v := hback (k, v) List.mem_cons_self
  have hdepth : v.depth ≤ room := hroom (k, v) List.mem_cons_self
  induction fs generalizing k v fuel offset with
  | nil =>
    obtain ⟨fuel, rfl⟩ : ∃ n, fuel = n + 1 := ⟨fuel - 1, by omega⟩
    have henough : 2 * (writeAt style depth v).length < fuel := by omega
    have hends : EndsValue (gap ++ '}' :: rest) := endsValue_gap hgap (by decide) rest
    obtain ⟨offset₁, hlast, -⟩ := scanFields_field hstyle hvalue hdepth henough k offset hends
    obtain ⟨offset₂, hskip⟩ := skipSpacing_append (c := '}') hgap rfl rest offset₁
    rw [writeFields, List.nil_append, hlast rest offset₂ hskip]
    exact ⟨_, rfl⟩
  | cons g gs ih =>
    obtain ⟨l, w⟩ := g
    obtain ⟨fuel, rfl⟩ : ∃ n, fuel = n + 1 := ⟨fuel - 1, by omega⟩
    have henough : 2 * (writeAt style depth v).length < fuel := by omega
    generalize hmore : style.breakAt depth ++ (writeString l ++ (style.colon ++
      (writeAt style depth w ++ (writeFields style depth gs ++ (gap ++ '}' :: rest))))) = more
    have hsplit : writeFields style depth ((l, w) :: gs) ++ (gap ++ '}' :: rest) = ',' :: more := by
      rw [← hmore]
      simp only [writeFields, hstyle.comma, List.append_assoc, List.cons_append, List.nil_append]
    have hlength : (writeFields style depth ((l, w) :: gs)).length
        = 1 + (style.breakAt depth).length + (writeString l).length + style.colon.length
          + (writeAt style depth w).length + (writeFields style depth gs).length := by
      simp only [writeFields, hstyle.comma, List.length_append, List.length_cons, List.length_nil]
    have hnext : 2 * ((writeAt style depth w).length + (writeFields style depth gs).length) + 1
        < fuel := by omega
    have hends : EndsValue (',' :: more) := endsValue_cons (by decide) more
    obtain ⟨offset₁, -, hgoes⟩ := scanFields_field hstyle hvalue hdepth henough k offset hends
    obtain ⟨offset₂, hskip⟩ : ∃ offset', Cursor.skipSpacing ⟨more, offset₁ + 1⟩
        = ⟨writeString l ++ (style.colon ++ (writeAt style depth w ++
            (writeFields style depth gs ++ (gap ++ '}' :: rest)))), offset'⟩ := by
      rw [← hmore]
      exact skipSpacing_append (hstyle.breaks depth) rfl _ (offset₁ + 1)
    have hfields := ih (fun f hf => hback f (List.mem_cons_of_mem _ hf))
      (fun f hf => hroom f (List.mem_cons_of_mem _ hf)) hnext offset₂
      (hback (l, w) (List.mem_cons_of_mem _ List.mem_cons_self))
      (hroom (l, w) (List.mem_cons_of_mem _ List.mem_cons_self))
    rw [hsplit, hgoes more offset₁ (skipSpacing_cons rfl more offset₁), hskip]
    exact hfields.map ((k, v) :: ·)

/-- An object with a field in it is scanned by its fields. -/
theorem scanValue_object {cs cs' : List Char} {c : Char} {offset offset' : Nat}
    (hskip : Cursor.skipSpacing ⟨cs, offset + 1⟩ = ⟨c :: cs', offset'⟩) (hc : c ≠ '}')
    (fuel room : Nat) :
    scanValue (fuel + 1) (room + 1) ⟨'{' :: cs, offset⟩
      = (scanFields fuel room ⟨c :: cs', offset'⟩).map
          fun (fs, c) => (obj (Entries.ofPairs fs), c) := by
  have hroom : room + 1 ≠ 0 := Nat.succ_ne_zero room
  rw [scanValue]
  simp only [hroom, if_false, hskip]
  split
  · rename_i heq
    exact absurd (List.cons.inj heq).1 hc
  · rfl

theorem readsBack_obj (hstyle : style.Spaced) {fs : Fields}
    (hback : ∀ f ∈ fs, ReadsBack style f.2) (hkeys : (fs.map (·.1)).Nodup) :
    ReadsBack style (obj fs) := by
  intro depth fuel room offset rest hroom hfuel _
  obtain ⟨fuel, rfl⟩ : ∃ n, fuel = n + 1 := ⟨fuel - 1, by omega⟩
  obtain ⟨room, rfl⟩ : ∃ n, room = n + 1 := ⟨room - 1, by rw [Json.depth] at hroom; omega⟩
  cases fs with
  | nil => exact ⟨_, rfl⟩
  | cons f fs =>
    obtain ⟨k, v⟩ := f
    have hall : ∀ f ∈ (k, v) :: fs, f.2.depth ≤ room := by
      rw [Json.depth] at hroom
      exact depthFields_le.mp (by omega)
    have htext : writeAt style depth (obj ((k, v) :: fs)) ++ rest
        = '{' :: (style.breakAt (depth + 1) ++ (writeString k ++ (style.colon ++
            (writeAt style (depth + 1) v ++ (writeFields style (depth + 1) fs ++
              (style.breakAt depth ++ '}' :: rest)))))) := by
      simp only [writeAt, List.append_assoc, List.cons_append, List.nil_append]
    have hlength : (writeAt style depth (obj ((k, v) :: fs))).length
        = 2 + (style.breakAt (depth + 1)).length + (writeString k).length + style.colon.length
          + (writeAt style (depth + 1) v).length + (writeFields style (depth + 1) fs).length
          + (style.breakAt depth).length := by
      simp only [writeAt, List.length_append, List.length_cons, List.length_nil]
      omega
    have henough : 2 * ((writeAt style (depth + 1) v).length
        + (writeFields style (depth + 1) fs).length) + 1 < fuel := by omega
    generalize hbody : writeString k ++ (style.colon ++ (writeAt style (depth + 1) v ++
      (writeFields style (depth + 1) fs ++ (style.breakAt depth ++ '}' :: rest)))) = body at htext
    obtain ⟨cs, hquote⟩ : ∃ cs, body = '"' :: cs := ⟨_, hbody.symm⟩
    obtain ⟨offset₁, hskip⟩ : ∃ offset', Cursor.skipSpacing
        ⟨style.breakAt (depth + 1) ++ '"' :: cs, offset + 1⟩ = ⟨'"' :: cs, offset'⟩ :=
      skipSpacing_append (hstyle.breaks (depth + 1)) rfl _ (offset + 1)
    have hfields := reads_fields hstyle (hstyle.breaks depth) (depth + 1) hback hall henough
      offset₁ rest
    rw [hbody, hquote] at hfields
    rw [htext, hquote, scanValue_object hskip (by decide)]
    have hread := hfields.map fun fs => obj (Entries.ofPairs fs)
    rw [Entries.ofPairs_of_nodup hkeys] at hread
    exact hread

/-! ## Whole texts -/

/-- A value that a text can hold is read back from it. -/
theorem readsBack (hstyle : style.Spaced) (v : Json) (hv : v.isPortable = true) :
    ReadsBack style v := by
  induction v using induct with
  | null =>
    exact readsBack_scalar "null".toList (fun _ => rfl) ⟨'n', _, rfl, rfl⟩
      fun offset _ _ => ⟨offset + 4, rfl⟩
  | bool b =>
    cases b with
    | true =>
      exact readsBack_scalar "true".toList (fun _ => rfl) ⟨'t', _, rfl, rfl⟩
        fun offset _ _ => ⟨offset + 4, rfl⟩
    | false =>
      exact readsBack_scalar "false".toList (fun _ => rfl) ⟨'f', _, rfl, rfl⟩
        fun offset _ _ => ⟨offset + 5, rfl⟩
  | int n =>
    rw [isPortable, decide_eq_true_iff] at hv
    exact readsBack_scalar _ (fun _ => rfl) (begins_int n)
      fun offset _ hrest => reads_int hv offset hrest
  | float x =>
    exact readsBack_scalar _ (fun _ => rfl) (begins_double x)
      fun offset _ hrest => reads_double x offset hrest
  | str s => exact readsBack_str s
  | arr xs ih =>
    have hall := isPortable_arr.mp hv
    exact readsBack_arr hstyle fun v hmem => ih v hmem (hall v hmem)
  | obj fs ih =>
    obtain ⟨hall, hkeys⟩ := isPortable_obj.mp hv
    exact readsBack_obj hstyle (fun f hmem => ih f hmem (hall f hmem)) hkeys

theorem scanDocument_writeAt (hstyle : style.Spaced) {v : Json} (hv : v.isPortable = true)
    (hdepth : v.depth ≤ nestingLimit) : scanDocument (writeAt style 0 v) = .ok v := by
  have hskip := skipSpacing_writeAt style isGap_nil 0 v [] 0
  rw [List.append_nil, List.nil_append] at hskip
  obtain ⟨offset₁, hskip⟩ := hskip
  have hread := readsBack hstyle v hv 0 (2 * (writeAt style 0 v).length + 2) nestingLimit offset₁ []
    hdepth (by omega) endsValue_nil
  rw [List.append_nil] at hread
  obtain ⟨offset₂, hread⟩ := hread
  rw [scanDocument, hskip, hread]
  rfl

/-- The text of a value is read back to it. -/
theorem read_ofList_writeAt (hstyle : style.Spaced) {v : Json} (hv : v.isPortable = true)
    (hdepth : v.depth ≤ nestingLimit) : read (String.ofList (writeAt style 0 v)) = .ok v := by
  obtain ⟨c, cs, htext, hc⟩ := begins_writeAt style 0 v
  have hmark : c ≠ '\uFEFF' := ne_of_opensValue hc rfl
  have hscan := scanDocument_writeAt hstyle hv hdepth
  rw [htext] at hscan ⊢
  rw [read, String.toList_ofList]
  split
  · rename_i heq
    exact absurd (List.cons.inj heq).1 hmark
  · rw [hscan]
    rfl

theorem read_write {v : Json} (hv : v.isPortable = true) (hdepth : v.depth ≤ nestingLimit) :
    read v.write = .ok v :=
  read_ofList_writeAt Style.spaced_compact hv hdepth

theorem read_writeIndented {v : Json} (hv : v.isPortable = true) (hdepth : v.depth ≤ nestingLimit) :
    read v.writeIndented = .ok v :=
  read_ofList_writeAt Style.spaced_indented hv hdepth

end Json

end DecisionBoard
