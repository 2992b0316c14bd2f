import RetainedUi.Wire.Draft

/-!
# A sample patch

A column with a line of text, a row of two buttons, and a centred box with text in it.
-/

namespace RetainedUi

def sampleInstructions : List Instruction := [
  .createNode 1 .column,
  .setPadding 1 ⟨16, 16, 16, 16⟩,
  .setGap 1 12,
  .setAlign 1 .start .center,
  .createNode 2 .text,
  .setText 2 "Hello from canopy",
  .setSize 2 320 40,
  .appendChild 1 2,
  .createNode 3 .row,
  .setGap 3 8,
  .setSize 3 0 56,
  .appendChild 1 3,
  .createNode 4 .button,
  .setText 4 "OK",
  .appendChild 3 4,
  .createNode 5 .button,
  .setText 5 "Cancel",
  .setSize 5 128 0,
  .appendChild 3 5,
  .createNode 6 .center,
  .setSize 6 0 200,
  .appendChild 1 6,
  .createNode 7 .sizedBox,
  .setSize 7 240 120,
  .appendChild 6 7,
  .createNode 8 .text,
  .setText 8 "centered",
  .appendChild 7 8]

def samplePatch : Bytes := (Draft.ofInstructions sampleInstructions).toPatch

end RetainedUi
