import MiniEcu.Tester.Pending

/-!
# The records of a multi-DID response

The response to a read of several DIDs is a sequence of records without lengths. The client accepts
the sequences that its table allows, and nothing else. What it accepts it has understood: the values
written down again give the response.
-/

namespace MiniEcu.Tester

/-! ### The grammar -/

/-- The first entry of the table with this identifier. -/
def specOf (specs : List DidSpec) (id : UInt16) : Option DidSpec := specs.find? fun spec => spec.id = id

/-- The byte strings that are sequences of records, each with the values in it. -/
inductive Records (specs : List DidSpec) : Bytes → List DidValue → Prop
  | nil : Records specs [] []
  | cons {v : DidValue} {spec : DidSpec} {bs : Bytes} {values : List DidValue}
      (hspec : specOf specs v.id = some spec) (hlength : v.data.length = spec.length)
      (rest : Records specs bs values) :
      Records specs (Words.bytes v.id ++ v.data ++ bs) (v :: values)

/-- The values as they stand in a response. -/
def encodeDids (values : List DidValue) : Bytes := values.flatMap fun v => Words.bytes v.id ++ v.data

variable {specs : List DidSpec} {bs : Bytes} {values : List DidValue}

theorem Records.encode (h : Records specs bs values) : encodeDids values = bs := by
  induction h with
  | nil => rfl
  | cons hspec hlength rest ih => rw [encodeDids, List.flatMap_cons, ← encodeDids, ih]

/-- The decoder reads a record, and goes on behind it. -/
theorem decodeDids_record {v : DidValue} {spec : DidSpec} (hspec : specOf specs v.id = some spec)
    (hlength : v.data.length = spec.length) (bs : Bytes) :
    decodeDids specs (Words.bytes v.id ++ v.data ++ bs) = (decodeDids specs bs).map (v :: ·) := by
  rw [specOf] at hspec
  rw [List.append_assoc]
  show decodeDids specs ((v.id >>> 8).toUInt8 :: v.id.toUInt8 :: (v.data ++ bs)) = _
  rw [decodeDids, Words.be16_bytes, hspec]
  dsimp only
  rw [← hlength, if_neg (by rw [List.length_append]; omega), List.take_left', List.drop_left'] <;> rfl

theorem Records.decode (h : Records specs bs values) : decodeDids specs bs = .ok values := by
  induction h with
  | nil => rw [decodeDids]
  | cons hspec hlength rest ih =>
      rw [decodeDids_record hspec hlength, ih]
      rfl

/-- The other way round: what is decoded is in the grammar, and everything else is malformed. -/
theorem decodeDids_cases (specs : List DidSpec) (bs : Bytes) :
    (∃ values, decodeDids specs bs = .ok values ∧ Records specs bs values) ∨
      decodeDids specs bs = .error .malformed := by
  induction bs using decodeDids.induct specs with
  | case1 => exact .inl ⟨[], by rw [decodeDids], .nil⟩
  | case2 b => exact .inr (by rw [decodeDids])
  | case3 hi lo rest hunknown =>
      right
      rw [decodeDids, hunknown]
  | case4 hi lo rest spec hspec hshort =>
      right
      rw [decodeDids, hspec]
      exact if_pos hshort
  | case5 hi lo rest spec hspec hlong ih =>
      let v : DidValue := { id := Words.be16 hi lo, data := rest.take spec.length }
      have hdecode : decodeDids specs (hi :: lo :: rest) =
          (decodeDids specs (rest.drop spec.length)).map (v :: ·) := by
        rw [decodeDids, hspec]
        exact if_neg hlong
      have hsplit : hi :: lo :: rest = Words.bytes v.id ++ v.data ++ rest.drop spec.length := by
        rw [Words.bytes_be16, List.append_assoc, List.take_append_drop]
        rfl
      rcases ih with ⟨values, hok, hrecords⟩ | herror
      · refine .inl ⟨v :: values, ?_, ?_⟩
        · rw [hdecode, hok, Except.map]
        · rw [hsplit]
          exact .cons hspec (List.length_take_of_le (Nat.le_of_not_lt hlong)) hrecords
      · right
        rw [hdecode, herror, Except.map]

/-! ### The cursor -/

/-- The loop of `UdsClient::readDids` with its cursor. It answers nothing if it reads past the end of
the response. -/
def cursorLoop (specs : List DidSpec) (b : Bytes) (pos : Nat) (values : List DidValue) :
    Option (Except Error (List DidValue)) :=
  if pos < b.length then
    if b.length < pos + 2 then some (.error .malformed)
    else
      (Memory.load b pos).bind fun hi =>
        (Memory.load b (pos + 1)).bind fun lo =>
          match specOf specs (Words.be16 hi lo) with
          | none => some (.error .malformed)
          | some spec =>
              if b.length < pos + 2 + spec.length then some (.error .malformed)
              else
                (Memory.loadAll b (pos + 2) spec.length).bind fun data =>
                  cursorLoop specs b (pos + 2 + spec.length)
                    (values ++ [{ id := Words.be16 hi lo, data := data }])
  else some (.ok values)
termination_by b.length - pos

/-- The cursor stays inside the response, and the loop decodes what is left of it. -/
theorem cursorLoop_eq (specs : List DidSpec) (b : Bytes) (pos : Nat) (values : List DidValue) :
    cursorLoop specs b pos values = some ((decodeDids specs (b.drop pos)).map (values ++ ·)) := by
  induction hleft : b.length - pos using Nat.strongRecOn generalizing pos values with
  | ind left ih =>
      rw [cursorLoop]
      split
      · rename_i hpos
        rw [List.drop_eq_getElem_cons hpos]
        split
        · rename_i hend
          rw [List.drop_eq_nil_of_le (by omega), decodeDids, Except.map]
        rename_i hmore
        have hpos' : pos + 1 < b.length := by omega
        rw [List.drop_eq_getElem_cons hpos', decodeDids, Memory.load, Memory.load,
          List.getElem?_eq_getElem hpos, List.getElem?_eq_getElem hpos', Option.bind_some,
          Option.bind_some, ← specOf]
        generalize Words.be16 b[pos] b[pos + 1] = id
        cases specOf specs id with
        | none => rw [Except.map]
        | some spec =>
            dsimp only
            rw [List.length_drop]
            split
            · rw [if_pos (by omega), Except.map]
            rename_i hroom
            rw [if_neg (by omega), Memory.loadAll_eq (by omega), Option.bind_some,
              ih _ (by omega) _ _ rfl, List.drop_drop, Memory.slice]
            cases decodeDids specs (b.drop (pos + 2 + spec.length)) with
            | error e => rfl
            | ok rest => simp [Except.map]
      · rename_i hend
        rw [List.drop_eq_nil_of_le (Nat.le_of_not_lt hend), decodeDids, Except.map, List.append_nil]

/-! ### Reading -/

/-- **The response parser.** Whatever the table and the response, the client accepts the response
exactly if what follows its first byte is a sequence of records. The values it returns, written down
again, are these bytes; any other response is malformed. The cursor never leaves the response. -/
theorem readDids_parses {τ : Type} (t : Transport τ) (timing : ClientTiming) (specs : List DidSpec)
    (s : τ) (bs : Bytes)
    (hresponse : (request t timing (readDidsRequest specs) false s).1 = .ok (0x62 :: bs)) :
    ((∃ values, (readDids t timing specs s).1 = .ok values) ↔ ∃ values, Records specs bs values) ∧
      (∀ values, (readDids t timing specs s).1 = .ok values →
        Records specs bs values ∧ encodeDids values = bs) ∧
      ((¬ ∃ values, Records specs bs values) → (readDids t timing specs s).1 = .error .malformed) ∧
      cursorLoop specs (0x62 :: bs) 1 [] = some (readDids t timing specs s).1 := by
  have hdecoded : (readDids t timing specs s).1 = decodeDids specs bs := by
    rw [readDids_eq_exchange, exchange_ok hresponse]
    rfl
  have hcursor : cursorLoop specs (0x62 :: bs) 1 [] = some (decodeDids specs bs) := by
    rw [cursorLoop_eq, List.drop_succ_cons, List.drop_zero]
    cases decodeDids specs bs <;> rfl
  rw [hdecoded]
  rcases decodeDids_cases specs bs with ⟨values, hok, hrecords⟩ | herror
  · refine ⟨iff_of_true ⟨values, hok⟩ ⟨values, hrecords⟩, fun values' hok' => ?_,
      fun hnone => absurd ⟨values, hrecords⟩ hnone, hcursor⟩
    rw [hok] at hok'
    obtain rfl := Except.ok.inj hok'
    exact ⟨hrecords, hrecords.encode⟩
  · have hnone : ¬ ∃ values, Records specs bs values := by
      rintro ⟨values, hrecords⟩
      rw [hrecords.decode] at herror
      cases herror
    have hnotok : ¬ ∃ values, decodeDids specs bs = .ok values := by
      rintro ⟨values, hok⟩
      rw [hok] at herror
      cases herror
    exact ⟨iff_of_false hnotok hnone, fun values hok => absurd ⟨values, hok⟩ hnotok,
      fun _ => herror, hcursor⟩

/-- The second of two records has no data, and is accepted. -/
theorem readDids_parses_emptyRecord :
    ∃ values, (readDids (scriptedTransport
        (fun _ => some [0x62, 0x01, 0x00, 0x0C, 0x1A, 0xF1, 0x90]) true) {}
        [{ id := 0x0100, length := 2 }, { id := 0xF190, length := 0 }] {}).1 = .ok values ∧
      encodeDids values = [0x01, 0x00, 0x0C, 0x1A, 0xF1, 0x90] := by
  obtain ⟨hiff, henc, -, -⟩ := readDids_parses (scriptedTransport
      (fun _ => some [0x62, 0x01, 0x00, 0x0C, 0x1A, 0xF1, 0x90]) true) {}
    [{ id := 0x0100, length := 2 }, { id := 0xF190, length := 0 }] {}
    [0x01, 0x00, 0x0C, 0x1A, 0xF1, 0x90] rfl
  have hrecords : ∃ values, Records [{ id := 0x0100, length := 2 }, { id := 0xF190, length := 0 }]
      [0x01, 0x00, 0x0C, 0x1A, 0xF1, 0x90] values :=
    ⟨_, .cons (v := { id := 0x0100, data := [0x0C, 0x1A] }) rfl rfl
      (.cons (v := { id := 0xF190, data := [] }) rfl rfl .nil)⟩
  obtain ⟨values, hok⟩ := hiff.mpr hrecords
  exact ⟨values, hok, (henc values hok).2⟩

end MiniEcu.Tester
