import ImageDimensions.Overload

/-!
# Template — the text of generated code

The fixed lines of the generated file, and the lines that depend on an image type or on a method.
-/

namespace ImageDimensions.Template

/-- The first fragment of the file. -/
def fileHeader : String := "// Generated boilerplate code for _Image.get_dimensions method.\n"

/-- The declaration of the module that the file belongs to. -/
def moduleDeclaration : String := "implementing bindless;\n"

/-- The end of a block. -/
def blockClose : String := "\x7d\n"

/-- The line above a block, which names the image type for readers. -/
def blockComment (c : Combination) : String :=
  "// Shape " ++ c.row.shape.suffix ++ ", " ++ c.access.label ++ ", " ++ c.layering.label ++ ", "
    ++ c.sampling.label

/-- The line that lists the generic parameters of a block. -/
def genericLine : String := "__generic<T:ITexelElement, let sampleCount:int, let format:int>"

/-- The line that opens the block of an image type. -/
def extensionLine (c : Combination) : String :=
  "public extension _Image<T, __Shape" ++ c.row.shape.suffix ++ ", " ++ toString c.layering.flag ++ ", "
    ++ toString c.sampling.flag ++ ", sampleCount, " ++ toString c.access.code ++ ", format> \x7b"

/-- The two lines that open the block of an image type. -/
def blockHeader (c : Combination) : List String := [genericLine, extensionLine c]

/-- The declaration of a parameter: what is passed in is unsigned, what is given out has the scalar
type of the method. -/
def declaration (s : Scalar) (p : Parameter) : String :=
  match p.direction with
  | .input => "uint " ++ p.name
  | .output => "out " ++ s.keyword ++ " " ++ p.name

/-- The line that opens a method. -/
def methodLine (s : Scalar) (o : Overload) : String :=
  "    public void get_dimensions(" ++ ", ".intercalate (o.parameters.map (declaration s)) ++ ") \x7b"

/-- The line that asks the image. -/
def callLine (o : Overload) : String :=
  "        image.GetDimensions(" ++ ", ".intercalate o.argumentNames ++ ");"

/-- The four lines of a method. -/
def method (s : Scalar) (o : Overload) : List String :=
  [methodLine s o, "        ImageType image = get();", callLine o, "    \x7d"]

/-- The fragments of the block of an image type: its comment, its header, a method for each scalar type
and signature, and its end. -/
def block (scalars : List Scalar) (c : Combination) : List String :=
  blockComment c :: blockHeader c ++ (scalars.flatMap fun s => c.overloads.flatMap (method s))
    ++ [blockClose]

end ImageDimensions.Template
