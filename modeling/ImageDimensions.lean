import ImageDimensions.FileSystem.Construction
import ImageDimensions.FileSystem.Listing
import ImageDimensions.Main
import ImageDimensions.Proofs.Artifact.LastWrite
import ImageDimensions.Proofs.Generator.Methods
import ImageDimensions.Proofs.Generator.Rendering
import ImageDimensions.Proofs.FileSystem.Effect
import ImageDimensions.Proofs.Artifact.Success
import ImageDimensions.Proofs.Artifact.Verdict
import ImageDimensions.Proofs.CommandLine.Runs
import ImageDimensions.Proofs.Generator.Blocks
import ImageDimensions.Proofs.Generator.Layout
import ImageDimensions.Proofs.Generator.Relisting
import ImageDimensions.Proofs.Tables.Objections
import ImageDimensions.Proofs.Tables.Places
import ImageDimensions.Proofs.Generator.Bounds
import ImageDimensions.Proofs.Generator.Narrowing
import ImageDimensions.Proofs.FirstRepetition
import ImageDimensions.Proofs.Additions
