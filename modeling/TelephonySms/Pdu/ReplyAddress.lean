import TelephonySms.Pdu.Address
import TelephonySms.Pdu.HeaderElements

/-! # Reply addresses among other elements

`EncodeHeaderReplyAddress` copies the address behind the index and leaves the index before it.
What is written next stands over the address, and a reader that has read the address is past
the place where the writer put the next element. A reply address comes back as the last element
alone, and only from octets behind the writer's index.
-/

namespace TelephonySms.Pdu

open SmsPduBuffer

/-! ## Numbers -/

/-- One to twenty digits, behind a `+` or not. -/
structure AddressNumber.IsNumber (num : AddressNumber) : Prop where
  digits : ∃ digits : List UInt8, digits ≠ [] ∧ digits.length ≤ 20 ∧
    (∀ c ∈ digits, 0x30 ≤ c ∧ c ≤ 0x39) ∧ (num.address = digits ∨ num.address = 0x2B :: digits)
  ton_lt : num.ton < 8
  npi_lt : num.npi < 16

theorem AddressNumber.IsNumber.dialled_eq {num : AddressNumber} (h : num.IsNumber) :
    num.dialled ≠ [] ∧ num.dialled.length ≤ 20 ∧ ∀ c ∈ num.dialled, 0x30 ≤ c ∧ c ≤ 0x39 := by
  rcases h.digits with ⟨digits, hne, hlen, hdigits, haddress⟩
  suffices hdialled : num.dialled = digits by
    rw [hdialled]
    exact ⟨hne, hlen, hdigits⟩
  rw [dialled, hasPlus]
  rcases haddress with haddress | haddress
  · cases digits with
    | nil => exact absurd rfl hne
    | cons c digits =>
        have hplus : c ≠ 0x2B := by
          rintro rfl
          exact absurd (hdigits 0x2B List.mem_cons_self).1 (by decide)
        rw [haddress, if_neg (by simp [hplus])]
  · have hpos := List.length_pos_iff.2 hne
    rw [haddress, if_pos (by simp [hpos])]
    rfl

theorem AddressNumber.IsNumber.encodable {num : AddressNumber} (h : num.IsNumber) :
    num.Encodable := by
  refine ⟨fun c hc => ?_, h.ton_lt, h.npi_lt⟩
  have hdigit := h.dialled_eq.2.2 c hc
  simp [isDigitChar, hdigit]

theorem AddressNumber.IsNumber.matchMarks_dialled {num : AddressNumber} (h : num.IsNumber) :
    matchMarks num.dialled = none := by
  have hdigits := h.dialled_eq.2.2
  cases hdialled : num.dialled with
  | nil => rfl
  | cons c cs =>
      rw [hdialled] at hdigits
      have hmark : isMark c = false := by
        have hdigit := (hdigits c List.mem_cons_self).1
        simp only [isMark, decide_eq_false_iff_not, not_or]
        constructor <;> (rintro rfl; exact absurd hdigit (by decide))
      rw [matchMarks, if_neg (by simp [hmark])]

/-- A number is read with the `+` it was written with, unless its type alone says that it is
international. -/
theorem AddressNumber.IsNumber.decoded_address_iff {num : AddressNumber} (h : num.IsNumber) :
    num.decoded.address = num.address ↔ num.hasPlus = true ∨ num.ton ≠ 1 := by
  simp only [decoded, regProcessSmsAddrs_of_none h.matchMarks_dialled]
  cases hplus : num.hasPlus with
  | true =>
      rw [show num.encodedTon = 1 from if_pos hplus, if_pos rfl, num.address_of_hasPlus hplus]
      simp
  | false =>
      rw [show num.encodedTon = num.ton from if_neg (by simp [hplus]),
        show num.dialled = num.address from if_neg (by simp [hplus])]
      by_cases hint : num.ton = 1
      · simp [hint]
      · simp [hint]

theorem AddressNumber.encodedTon_ne_five_iff (num : AddressNumber) :
    num.encodedTon ≠ 5 ↔ num.hasPlus = true ∨ num.ton ≠ 5 := by
  cases hplus : num.hasPlus with
  | true => simp [encodedTon, hplus]
  | false => simp [encodedTon, hplus]

theorem AddressNumber.length_octets (num : AddressNumber) :
    num.octets.length = 2 + (num.dialled.length + 1) / 2 := by
  simp only [octets, List.length_cons, length_bcdOctets]
  omega

/-- An address is read from its own octets and no fewer. -/
theorem AddressNumber.IsNumber.length_octets_le {coder : TextCoder} {num found : AddressNumber}
    (h : num.IsNumber) (passed rest : List UInt8) {size : Nat} {b : SmsPduBuffer}
    (hread : decodeAddressPdu coder (cursor passed ((num.octets ++ rest).take size)) =
      some (found, b)) : num.octets.length ≤ size := by
  rcases decodeAddressPdu_cursor hread with ⟨addrLen, more, rest', -, -, htake, rfl⟩
  rw [htake] at hread
  have haddress := (decodeAddressPdu_takes_iff coder passed (addrLen :: more) rest').1 ⟨_, hread⟩
  have hlen := h.dialled_eq.2.1
  have hsize : (UInt8.ofNat num.dialled.length).toNat = num.dialled.length := by
    rw [UInt8.toNat_ofNat']
    omega
  have hle := congrArg List.length htake
  rw [List.length_take, List.length_append, List.length_append, List.length_cons] at hle
  cases more with
  | nil => cases haddress
  | cons type os =>
      have hhead : addrLen = UInt8.ofNat num.dialled.length := by
        cases size with
        | zero => simp at htake
        | succ size =>
            rw [octets, List.cons_append, List.take_succ_cons] at htake
            exact (List.cons.inj htake).1.symm
      have hos : os.length = (num.dialled.length + 1) / 2 := by
        rw [isAddress, hhead, hsize] at haddress
        split at haddress
        · exact (of_decide_eq_true haddress).2.2
        · have hmin := (of_decide_eq_true haddress).2.2.1
          omega
      rw [num.length_octets]
      simp only [List.length_cons] at hle
      omega

/-- What a reader of the first octets of an address makes of it. -/
theorem AddressNumber.IsNumber.decodeAddressPdu_take_iff {coder : TextCoder}
    (hcoder : coder.AsciiBounded) {num : AddressNumber} (h : num.IsNumber)
    (hlen : num.address.length ≤ 20) (passed rest : List UInt8) (size : Nat) :
    (∃ found b, decodeAddressPdu coder (cursor passed ((num.octets ++ rest).take size)) =
        some (found, b) ∧ found.address = num.address) ↔
      num.octets.length ≤ size ∧ (num.hasPlus = true ∨ num.ton ≠ 1 ∧ num.ton ≠ 5) := by
  by_cases hsize : num.octets.length ≤ size
  · rw [and_iff_right hsize, List.take_append, List.take_of_length_le hsize]
    by_cases hname : num.encodedTon = 5
    · have hton := mt num.encodedTon_ne_five_iff.2 (not_not_intro hname)
      rw [not_or, not_not] at hton
      constructor
      · rintro ⟨found, b, hread, haddress⟩
        exact absurd haddress (decodeAddressPdu_address_ne hcoder h.encodable hlen hname hread)
      · rintro (hplus | ⟨-, hne⟩)
        · exact absurd hplus hton.1
        · exact absurd hton.2 hne
    · rw [decodeAddressPdu_octets coder h.encodable hname hlen, if_neg h.dialled_eq.1]
      have hback := h.decoded_address_iff
      have hton := num.encodedTon_ne_five_iff.1 hname
      constructor
      · rintro ⟨found, b, hread, haddress⟩
        cases hread
        rcases hback.1 haddress with hplus | hint
        · exact .inl hplus
        · exact hton.imp id fun hne => ⟨hint, hne⟩
      · intro hkept
        exact ⟨_, _, rfl, hback.2 (hkept.imp id And.left)⟩
  · refine iff_of_false ?_ fun hkept => hsize hkept.1
    rintro ⟨found, b, hread, -⟩
    exact hsize (h.length_octets_le passed rest hread)

/-! ## Writing the element -/

theorem writeBytes_cursor_eq (passed rest vs : List UInt8) :
    (cursor passed rest).writeBytes vs =
      cursor (passed ++ vs.take rest.length) (rest.drop vs.length) := by
  induction vs generalizing passed rest with
  | nil => simp [writeBytes, steps]
  | cons v vs ih =>
      cases rest with
      | nil => simp [writeBytes, steps]
      | cons w rest => simpa [writeBytes, steps] using ih (passed ++ [v]) rest

/-- The index is behind the length of a reply address at most. -/
theorem index_encodeHeaderReplyAddress_le (passed rest : List UInt8) (num : AddressNumber) :
    (encodeHeaderReplyAddress (cursor passed rest) num).index ≤ passed.length + 2 := by
  cases rest with
  | nil => simp [encodeHeaderReplyAddress]
  | cons v rest =>
      cases haddr : encodeAddressPdu num with
      | none => simp [encodeHeaderReplyAddress, haddr]
      | some octets =>
          cases rest with
          | nil => simp [encodeHeaderReplyAddress, haddr, steps]
          | cons w rest =>
              simp only [encodeHeaderReplyAddress, haddr, writeByte_cursor_cons, steps, copyHere,
                memcpy]
              split
              · simp
              · next hcopy =>
                  split at hcopy
                  · cases hcopy
                  · split at hcopy
                    · cases hcopy
                    · cases hcopy
                      simp

/-- An element that fits stands in the buffer with its address. -/
theorem AddressNumber.IsNumber.data_encodeHeader {num : AddressNumber} (h : num.IsNumber)
    (passed : List UInt8) {room : Nat} (hlen : num.address.length ≤ 20)
    (hfit : 2 + num.octets.length ≤ room) :
    (encodeHeader (cursor passed (List.replicate room 0)) (.alternateReplyAddress num)).data =
      passed ++ 0x22 :: UInt8.ofNat num.octets.length ::
        (num.octets ++ List.replicate (room - 2 - num.octets.length) 0) := by
  have haddr := encodeAddressPdu_of_le h.encodable hlen
  match room with
  | 0 => omega
  | 1 => omega
  | room + 2 =>
      have hcopy := memcpy_cursor (passed ++ [0x22] ++ [UInt8.ofNat num.octets.length])
        (List.replicate room 0) num.octets.length num.octets (by simp [num.length_octets])
        (Nat.le_refl _)
      simp only [encodeHeader, encodeHeaderReplyAddress, haddr, List.replicate_succ,
        writeByte_cursor_cons, steps, copyHere, cursor_index, cursor_getSize, List.length_append,
        List.length_cons, List.length_nil, List.length_replicate]
      rw [if_neg (by omega), hcopy]
      simp

/-- Of an element that does not fit the third octet is zero or missing. -/
theorem AddressNumber.IsNumber.data_encodeHeader_of_not {num : AddressNumber} (h : num.IsNumber)
    (passed : List UInt8) {room : Nat}
    (hfit : ¬ (num.address.length ≤ 20 ∧ 2 + num.octets.length ≤ room)) :
    ∃ ahead, (encodeHeader (cursor passed (List.replicate room 0))
      (.alternateReplyAddress num)).data = passed ++ ahead ∧ ahead.getD 2 0 = 0 := by
  rw [encodeHeader]
  by_cases hlen : num.address.length ≤ 20
  · have haddr := encodeAddressPdu_of_le h.encodable hlen
    rcases room with _ | _ | room
    · exact ⟨[], by simp [encodeHeaderReplyAddress], rfl⟩
    · exact ⟨[0x22], by simp [encodeHeaderReplyAddress, haddr, steps], rfl⟩
    · refine ⟨0x22 :: UInt8.ofNat num.octets.length :: List.replicate room 0, ?_, ?_⟩
      · simp only [encodeHeaderReplyAddress, haddr, List.replicate_succ, writeByte_cursor_cons,
          steps, copyHere, cursor_index, cursor_getSize, List.length_append, List.length_cons,
          List.length_nil, List.length_replicate]
        rw [if_pos (by omega)]
        simp
      · cases room <;> simp
  · have haddr : encodeAddressPdu num = none := by
      rw [encodeAddressPdu, if_pos (by omega)]
    cases room with
    | zero => exact ⟨[], by simp [encodeHeaderReplyAddress], rfl⟩
    | succ room =>
        refine ⟨0x22 :: List.replicate room 0, ?_, ?_⟩
        · simp [encodeHeaderReplyAddress, haddr, List.replicate_succ]
        · rcases room with _ | _ | room <;> simp [List.replicate_succ]

/-! ## Element by element -/

/-- The header the reader gives back is the one that was written. Of a reply address the
characters count. -/
def SmsUDH.SameAs : SmsUDH → SmsUDH → Prop
  | .alternateReplyAddress found, .alternateReplyAddress num => found.address = num.address
  | found, header => found = header

/-- The reader gives the headers back one after another, each from where the index of the writer
stood before it. -/
def ReadInPlace (coder : TextCoder) : SmsPduBuffer → SmsPduBuffer → List SmsUDH → Prop
  | _, _, [] => True
  | writer, reader, header :: headers =>
      reader.index = writer.index ∧
        ∃ found reader', decodeHeader coder reader = some (found, reader') ∧
          found.SameAs header ∧ ReadInPlace coder (encodeHeader writer header) reader' headers

/-- `EncodeHeader` on all headers, and `DecodeHeader` on the first `size` octets of the buffer
from the first header on. -/
def ReturnedInPlace (coder : TextCoder) (size : Nat) (writer : SmsPduBuffer)
    (headers : List SmsUDH) : Prop :=
  ReadInPlace coder writer
    ⟨(headers.foldl encodeHeader writer).data.take size, writer.index, 0⟩ headers

theorem ReadInPlace.index_eq {coder : TextCoder} {writer reader : SmsPduBuffer}
    {headers : List SmsUDH} (h : ReadInPlace coder writer reader headers) (hne : headers ≠ []) :
    reader.index = writer.index := by
  cases headers with
  | nil => exact absurd rfl hne
  | cons header headers => exact h.1

/-- Of any buffer, what the decoder has read when it returns a header. -/
theorem readAs_of_decodeHeader {coder : TextCoder} {data : List UInt8} {i : Nat} {found : SmsUDH}
    {b : SmsPduBuffer} (h : decodeHeader coder ⟨data, i, 0⟩ = some (found, b)) :
    ∃ used rest, data.drop i = used ++ rest ∧ b = ⟨data, i + used.length, 0⟩ ∧
      ReadAs found used := by
  by_cases hi : i ≤ data.length
  · have hcursor : (⟨data, i, 0⟩ : SmsPduBuffer) = cursor (data.take i) (data.drop i) := by
      simp [cursor, hi]
    rw [hcursor] at h
    rcases decodeHeader_sound h with ⟨used, rest, hdrop, rfl, hused⟩
    refine ⟨used, rest, hdrop, ?_, hused⟩
    rw [cursor, List.append_assoc, ← hdrop, List.take_append_drop, List.length_append,
      List.length_take, Nat.min_eq_left hi]
  · have hnone : data[i]? = none := List.getElem?_eq_none (by omega)
    simp [decodeHeader, readByte, hnone] at h

theorem SmsUDH.SameAs.eq_of_isPlain {found header : SmsUDH} (h : found.SameAs header)
    (hplain : header.isPlain = true) : found = header := by
  cases header with
  | alternateReplyAddress _ => simp [SmsUDH.isPlain, SmsUDH.element] at hplain
  | _ => cases found <;> exact h

/-- Elements that come back in front of others were written in full. -/
theorem ReadInPlace.after_plain {coder : TextCoder} {data passed rest : List UInt8}
    {front others : List SmsUDH} (hplain : front.all SmsUDH.isPlain = true) (hne : others ≠ [])
    (h : ReadInPlace coder (cursor passed rest) ⟨data, passed.length, 0⟩ (front ++ others)) :
    (front.flatMap headerOctets).length ≤ rest.length ∧
      ReadInPlace coder (cursor (passed ++ front.flatMap headerOctets)
          (rest.drop (front.flatMap headerOctets).length))
        ⟨data, (passed ++ front.flatMap headerOctets).length, 0⟩ others := by
  induction front generalizing passed rest with
  | nil => simpa using h
  | cons header front ih =>
      rw [List.all_cons, Bool.and_eq_true] at hplain
      rcases h with ⟨-, found, reader', hdecode, hsame, hothers⟩
      rcases readAs_of_decodeHeader hdecode with ⟨used, more, -, rfl, hused⟩
      rw [hsame.eq_of_isPlain hplain.1] at hused
      have hlen : used.length = (headerOctets header).length := by
        cases helem : header.element with
        | none => simp [SmsUDH.isPlain, helem] at hplain
        | some element =>
            rcases readAs_of_element helem hused with ⟨length, -, rfl⟩
            rw [headerOctets_of_element helem]
            rfl
      -- the next element is where the writer's index is, so that none of these octets is lost
      have hindex := hothers.index_eq (by simp [hne])
      rw [encodeHeader_of_isPlain _ hplain.1, writeBytes_cursor_eq] at hothers hindex
      simp only [cursor_index, List.length_append, List.length_take, hlen] at hindex
      have hfit : (headerOctets header).length ≤ rest.length := by
        have hpos := three_le_length_headerOctets hplain.1
        omega
      rw [List.take_of_length_le hfit, hlen, ← List.length_append] at hothers
      have hrest := ih hplain.2 hothers
      rw [List.length_drop, List.drop_drop, List.append_assoc] at hrest
      rw [List.flatMap_cons, List.length_append]
      exact ⟨by omega, hrest.2⟩

/-- Elements that are written in full come back. -/
theorem readInPlace_append_of_plain {coder : TextCoder} {front others : List SmsUDH}
    (hplain : front.all SmsUDH.isPlain = true) {passed rest more : List UInt8}
    (hfit : (front.flatMap headerOctets).length ≤ rest.length)
    (h : ReadInPlace coder (cursor (passed ++ front.flatMap headerOctets)
        (rest.drop (front.flatMap headerOctets).length))
      (cursor (passed ++ front.flatMap headerOctets) more) others) :
    ReadInPlace coder (cursor passed rest) (cursor passed (front.flatMap headerOctets ++ more))
      (front ++ others) := by
  induction front generalizing passed rest with
  | nil => simpa using h
  | cons header front ih =>
      rw [List.all_cons, Bool.and_eq_true] at hplain
      rw [List.flatMap_cons, List.length_append] at hfit
      refine ⟨rfl, header, cursor (passed ++ headerOctets header)
        (front.flatMap headerOctets ++ more), ?_, ?_, ?_⟩
      · rw [List.flatMap_cons, List.append_assoc, decodeHeader_append coder hplain.1]
      · cases header <;> rfl
      · rw [encodeHeader_of_isPlain _ hplain.1, writeBytes_cursor_drop _ _ _ (by omega)]
        refine ih hplain.2 (by rw [List.length_drop]; omega) ?_
        rw [List.flatMap_cons, List.length_append] at h
        rwa [List.drop_drop, List.append_assoc]

theorem decodeHeader_replyAddress (coder : TextCoder) (passed more : List UInt8) {length : UInt8}
    (hlength : length ≠ 0) :
    decodeHeader coder (cursor passed (0x22 :: length :: more)) =
      (decodeAddressPdu coder (cursor (passed ++ [0x22] ++ [length]) more)).map
        fun result => (.alternateReplyAddress result.1, result.2) := by
  have htype : ¬ (0x22 : UInt8) = 0x00 ∧ ¬ (0x22 : UInt8) = 0x08 ∧ ¬ (0x22 : UInt8) = 0x04 ∧
      ¬ (0x22 : UInt8) = 0x05 ∧ ¬ (0x22 : UInt8) = 0x01 := by decide
  simp only [decodeHeader, readByte_cursor_cons, Option.bind_eq_bind, Option.bind_some,
    if_neg htype.1, if_neg htype.2.1, if_neg htype.2.2.1, if_neg htype.2.2.2.1,
    if_neg htype.2.2.2.2, if_true, decodeHeaderReplyAddress, decodeHeaderLength, if_neg hlength]
  cases decodeAddressPdu coder (cursor (passed ++ [0x22] ++ [length]) more) <;> rfl

/-- A reply address that comes back was read from four octets at least, the third not zero. -/
theorem SmsUDH.SameAs.replyAddress_octets {coder : TextCoder} {data : List UInt8} {i : Nat}
    {found : SmsUDH} {b : SmsPduBuffer} {num : AddressNumber}
    (h : found.SameAs (.alternateReplyAddress num))
    (hdecode : decodeHeader coder ⟨data, i, 0⟩ = some (found, b)) :
    ∃ length addrLen octets rest, addrLen ≠ 0 ∧ octets ≠ [] ∧
      data.drop i = 0x22 :: length :: addrLen :: octets ++ rest ∧
      b.index = i + (3 + octets.length) := by
  rcases readAs_of_decodeHeader hdecode with ⟨used, rest, hdrop, rfl, hused⟩
  cases found with
  | alternateReplyAddress found =>
      rcases hused with ⟨length, addrLen, octets, -, haddrLen, hne, rfl⟩
      refine ⟨length, addrLen, octets, rest, haddrLen, hne, hdrop, ?_⟩
      simp only [List.length_cons]
      omega
  | _ => cases h

/-- A reply address that is read is the last element: the reader is past the place where the
writer's index is left. -/
theorem ReadInPlace.after_eq_nil {coder : TextCoder} {passed rest data : List UInt8}
    {num : AddressNumber} {after : List SmsUDH}
    (h : ReadInPlace coder (cursor passed rest) ⟨data, passed.length, 0⟩
      (.alternateReplyAddress num :: after)) : after = [] := by
  rcases h with ⟨-, found, reader', hdecode, hsame, hafter⟩
  rcases hsame.replyAddress_octets hdecode with ⟨_, _, octets, _, -, hne, -, hreader⟩
  by_contra hmore
  have hindex := hafter.index_eq hmore
  have hle := index_encodeHeaderReplyAddress_le passed rest num
  have hpos := List.length_pos_iff.2 hne
  rw [encodeHeader, hreader] at hindex
  omega

/-- The reply address itself: its octets are in the buffer and among those that are read, and
its type does not change it. -/
theorem AddressNumber.IsNumber.readInPlace_iff {coder : TextCoder} (hcoder : coder.AsciiBounded)
    {num : AddressNumber} (h : num.IsNumber) (passed : List UInt8) (room size : Nat) :
    ReadInPlace coder (cursor passed (List.replicate room 0))
        ⟨(encodeHeader (cursor passed (List.replicate room 0))
          (.alternateReplyAddress num)).data.take size, passed.length, 0⟩
        [.alternateReplyAddress num] ↔
      num.address.length ≤ 20 ∧ (num.hasPlus = true ∨ num.ton ≠ 1 ∧ num.ton ≠ 5) ∧
        passed.length + 2 + num.octets.length ≤ min size (passed.length + room) := by
  by_cases hfit : num.address.length ≤ 20 ∧ 2 + num.octets.length ≤ room
  · rw [h.data_encodeHeader passed hfit.1 hfit.2]
    by_cases hsize : passed.length + 2 ≤ size
    · rcases Nat.exists_eq_add_of_le hsize with ⟨k, rfl⟩
      have hlength : UInt8.ofNat num.octets.length ≠ 0 := by
        have hle := h.dialled_eq.2.1
        rw [ne_eq, ofNat_eq_iff (by rw [num.length_octets]; omega), num.length_octets]
        simp only [UInt8.toNat_zero]
        omega
      have hback := h.decodeAddressPdu_take_iff hcoder hfit.1
        (passed ++ [0x22] ++ [UInt8.ofNat num.octets.length])
        (List.replicate (room - 2 - num.octets.length) 0) k
      rw [Nat.add_assoc, List.take_length_add_append, Nat.add_comm 2 k, List.take_succ_cons,
        List.take_succ_cons]
      have hcursor (xs : List UInt8) : (⟨passed ++ xs, passed.length, 0⟩ : SmsPduBuffer) =
          cursor passed xs := rfl
      rw [hcursor]
      simp only [ReadInPlace, decodeHeader_replyAddress coder passed _ hlength, cursor_index,
        true_and, and_true]
      constructor
      · rintro ⟨found, reader, hdecode, hsame⟩
        rcases Option.map_eq_some_iff.1 hdecode with ⟨⟨foundNum, b⟩, hread, hfound⟩
        cases hfound
        have hkept := hback.1 ⟨foundNum, b, hread, hsame⟩
        exact ⟨hfit.1, hkept.2, by omega⟩
      · rintro ⟨-, hton, hroom⟩
        rcases hback.2 ⟨by omega, hton⟩ with ⟨foundNum, b, hread, haddress⟩
        exact ⟨.alternateReplyAddress foundNum, b, by rw [hread]; rfl, haddress⟩
    · refine iff_of_false ?_ fun hkept => by omega
      rintro ⟨-, found, reader', hdecode, hsame, -⟩
      rcases hsame.replyAddress_octets hdecode with ⟨_, _, octets, _, -, -, hdrop, -⟩
      have hle := congrArg List.length hdrop
      rw [List.length_drop, List.length_take] at hle
      simp only [List.length_append, List.length_cons] at hle
      omega
  · rcases h.data_encodeHeader_of_not passed hfit with ⟨ahead, hdata, hzero⟩
    rw [hdata]
    refine iff_of_false ?_ fun hkept => hfit ⟨hkept.1, by omega⟩
    rintro ⟨-, found, reader', hdecode, hsame, -⟩
    rcases hsame.replyAddress_octets hdecode with ⟨_, addrLen, octets, _, haddrLen, -, hdrop, -⟩
    rw [List.drop_take, List.drop_left] at hdrop
    have hget := congrArg (·[2]?) hdrop
    simp only [List.getElem?_take, List.cons_append, List.getElem?_cons_succ,
      List.getElem?_cons_zero] at hget
    split at hget
    · rw [List.getD_eq_getElem?_getD, hget] at hzero
      exact haddrLen hzero
    · cases hget

theorem foldl_encodeHeader_of_plain {front : List SmsUDH}
    (hplain : front.all SmsUDH.isPlain = true) {passed rest : List UInt8}
    (hfit : (front.flatMap headerOctets).length ≤ rest.length) :
    front.foldl encodeHeader (cursor passed rest) =
      cursor (passed ++ front.flatMap headerOctets)
        (rest.drop (front.flatMap headerOctets).length) := by
  induction front generalizing passed rest with
  | nil => simp
  | cons header front ih =>
      rw [List.all_cons, Bool.and_eq_true] at hplain
      rw [List.flatMap_cons, List.length_append] at hfit
      rw [List.foldl_cons, encodeHeader_of_isPlain _ hplain.1,
        writeBytes_cursor_drop _ _ _ (by omega),
        ih hplain.2 (by rw [List.length_drop]; omega), List.drop_drop, List.append_assoc,
        List.flatMap_cons, List.length_append]

/-- A reply address behind elements that are written in full comes back with those behind it,
each where the writer's index stood before it, exactly when none is behind it, the type of the
number does not change it, and its octets are in the buffer and among those that are read. -/
theorem returnedInPlace_iff (coder : TextCoder) (hcoder : coder.AsciiBounded)
    {front : List SmsUDH} (hfront : front.all SmsUDH.isPlain = true) (after : List SmsUDH)
    {num : AddressNumber} (hnum : num.IsNumber) (passed : List UInt8) (room size : Nat) :
    ReturnedInPlace coder size (cursor passed (List.replicate room 0))
        (front ++ .alternateReplyAddress num :: after) ↔
      after = [] ∧ num.address.length ≤ 20 ∧ (num.hasPlus = true ∨ num.ton ≠ 1 ∧ num.ton ≠ 5) ∧
        passed.length + (front.flatMap headerOctets).length + 4 + (num.dialled.length + 1) / 2 ≤
          min size (passed.length + room) := by
  have hreply := hnum.readInPlace_iff hcoder (passed ++ front.flatMap headerOctets)
    (room - (front.flatMap headerOctets).length) size
  rw [num.length_octets, List.length_append] at hreply
  constructor
  · intro h
    rcases h.after_plain hfront (List.cons_ne_nil _ _) with ⟨hfit, hlast⟩
    rcases hlast.after_eq_nil with rfl
    rw [List.length_replicate] at hfit
    rw [List.foldl_append, foldl_encodeHeader_of_plain hfront (by simpa using hfit),
      List.drop_replicate, List.foldl_cons, List.foldl_nil, List.length_append] at hlast
    have hkept := hreply.1 hlast
    exact ⟨rfl, hkept.1, hkept.2.1, by omega⟩
  · rintro ⟨rfl, hlen, hton, hroom⟩
    have hfit : (front.flatMap headerOctets).length ≤ room := by omega
    have hlast := hreply.2 ⟨hlen, hton, by omega⟩
    have hwritten : front.foldl encodeHeader (cursor passed (List.replicate room 0)) =
        cursor (passed ++ front.flatMap headerOctets)
          (List.replicate (room - (front.flatMap headerOctets).length) 0) := by
      rw [foldl_encodeHeader_of_plain hfront (by simpa using hfit), List.drop_replicate]
    rw [ReturnedInPlace, List.foldl_append, hwritten, List.foldl_cons, List.foldl_nil]
    rw [hnum.data_encodeHeader _ hlen (by rw [num.length_octets]; omega)] at hlast ⊢
    rcases Nat.exists_eq_add_of_le
      (show (passed ++ front.flatMap headerOctets).length ≤ size by
        rw [List.length_append]
        omega) with ⟨k, rfl⟩
    rw [List.take_length_add_append, ← List.length_append] at *
    have hread := readInPlace_append_of_plain hfront
      (show (front.flatMap headerOctets).length ≤ (List.replicate room (0 : UInt8)).length by
        simpa using hfit)
      (by rw [List.drop_replicate]; exact hlast)
    have hcursor (xs ys : List UInt8) : cursor passed (xs ++ ys) =
        ⟨(passed ++ xs) ++ ys, passed.length, 0⟩ := by simp [cursor]
    rwa [hcursor] at hread

/-- `+123456` behind a concatenation header. -/
theorem returnedInPlace_last :
    ReturnedInPlace ⟨id, id⟩ 256 new
      [.concat8Bit 1 2 1,
        .alternateReplyAddress ⟨1, 1, [0x2B, 0x31, 0x32, 0x33, 0x34, 0x35, 0x36]⟩] :=
  (returnedInPlace_iff ⟨id, id⟩ (fun _ => List.countP_le_length)
    (show [SmsUDH.concat8Bit 1 2 1].all SmsUDH.isPlain = true from rfl) []
    (show AddressNumber.IsNumber ⟨1, 1, [0x2B, 0x31, 0x32, 0x33, 0x34, 0x35, 0x36]⟩ from
      ⟨⟨[0x31, 0x32, 0x33, 0x34, 0x35, 0x36], by decide, by decide, by simp, .inr rfl⟩,
        by decide, by decide⟩) [] 256 256).2
    ⟨rfl, by decide, .inl rfl, by decide⟩

/-- In front of one, the address is written over and nothing comes back. -/
theorem not_returnedInPlace_first :
    ¬ ReturnedInPlace ⟨id, id⟩ 256 new
      [.alternateReplyAddress ⟨1, 1, [0x2B, 0x31, 0x32, 0x33, 0x34, 0x35, 0x36]⟩,
        .concat8Bit 1 2 1] := by
  rintro ⟨-, found, reader, hdecode, -⟩
  have hnone : decodeHeader ⟨id, id⟩ ⟨([SmsUDH.alternateReplyAddress
      ⟨1, 1, [0x2B, 0x31, 0x32, 0x33, 0x34, 0x35, 0x36]⟩, .concat8Bit 1 2 1].foldl encodeHeader
        new).data.take 256, 0, 0⟩ = none := by
    decide +kernel
  cases hnone.symm.trans hdecode

end TelephonySms.Pdu
