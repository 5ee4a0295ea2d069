import DroneParking.Library.Run
import DroneParking.Library.Effects
import DroneParking.Library.Object
import DroneParking.Library.Framing
import DroneParking.Library.Delivery
import DroneParking.Library.Record
import DroneParking.Library.Window
import DroneParking.Library.Before
import DroneParking.Library.Loop
import DroneParking.Library.Rounding
import DroneParking.Library.Bytes
import DroneParking.Library.Incremental
import DroneParking.Library.Document
import DroneParking.Library.Floating
import DroneParking.Library.Fields
import DroneParking.Js
import DroneParking.Doubles
import DroneParking.Control
import DroneParking.Client
import DroneParking.Script
import DroneParking.Pilot
import DroneParking.Protocol
import DroneParking.Handshake
import DroneParking.Handlers
import DroneParking.Steps
import DroneParking.Refinement
import DroneParking.Waypoints
import DroneParking.Route
import DroneParking.Flight
import DroneParking.Motion
import DroneParking.Wire
import DroneParking.Vision
import DroneParking.Tracking
import DroneParking.Validator
import DroneParking.CarFound
import DroneParking.Steering
import DroneParking.Directions
import DroneParking.Grid
import DroneParking.System
import DroneParking.Connection
import DroneParking.Queue
import DroneParking.Datagrams
import DroneParking.Repeats
import DroneParking.Transcript
import DroneParking.Telemetry
import DroneParking.Png
import DroneParking.Reader
import DroneParking.Pave
import DroneParking.Frames
import DroneParking.Options
import DroneParking.Packet
import DroneParking.Checksum
import DroneParking.Stream
